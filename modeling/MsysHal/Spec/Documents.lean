import MsysHal.Spec.CalibrationText

/-!
# Configuration documents read back as they were written

The text the backend writes for a setting is read as that setting by the loader of
the file, and after the line of its generation by the loader of the receipt.

## Key results

- `fps_round_trip`, `overlay_round_trip`, `cursor_round_trip`, `rotation_round_trip`,
  `calibration_round_trip`: each document
- `documents_round_trip`: the five documents and the four receipts
-/

namespace MsysHal.Ch347.Documents

open Interleave (Prog)
open Python (Value intText)
open Reload

/-! ## Round trips -/

/-- The active provider, while its process lives. -/
theorem loads_activeProvider {files : Files} {component : String} {owner : List Char}
    {generation pid : Nat} (hgeneration : generation ≤ 2 ^ 31 - 1) (hpid : 1 ≤ pid)
    (hpid' : pid ≤ 2 ^ 31 - 1) (howner : files .owner = some owner)
    (hmatch : matchOwner owner = some (generation, pid)) :
    Loads (Reload.activeProvider component) files (generation, pid) (· = pid) := by
  refine loads_read ?_
  rw [howner]
  simp only [hmatch]
  have hg :
      integer (.int generation) "provider generation" 0 (2 ^ 31 - 1) = .ok (generation : Int) :=
    integer_of_mem (by omega) _
  have hp : integer (.int pid) "provider pid" 1 (2 ^ 31 - 1) = .ok (pid : Int) :=
    integer_of_mem (by omega) _
  rw [hg, hp]
  change Loads (Reload.op (.pidAlive pid) >>= _) files _ _
  refine loads_pidAlive (by exact rfl) ?_
  exact loads_pure _

/-- A text that a file gives back, and that the loader of the file reads as a value. -/
structure RoundTrip {α : Type} (setting : Setting) (text : List Char) (load : ReloadM α) (a : α) :
    Prop where
  storable : Storable text
  loads : ∀ files, files (.setting setting) = some text → Loads load files a

/-- A text that, after the line of the generation of the owner, the loader of a
    receipt reads as a value of that generation. -/
def ReceiptTrip {α : Type} (receipt : Receipt) (text : List Char)
    (load : ReloadM (Option (Applied α) × Option String)) (a : α) : Prop :=
  ∀ files owner generation numeral, Owns owner generation numeral → files .owner = some owner →
    files (.applied receipt) = some (receiptText numeral text) →
      Loads load files (some ⟨a, generation⟩, none)

theorem fps_round_trip {debugEnabled fps idleFps : Value} {debug : Bool} {f i : Int}
    (h : validatedFps debugEnabled fps idleFps = .ok (debug, f, i)) :
    RoundTrip .fps (writeFps debug f i) loadFps (⟨debug, f, f, i⟩, none) ∧
      ReceiptTrip .display (writeFps debug f i) loadAppliedDisplayConfig ⟨debug, f, f, i⟩ := by
  have hbounds := validatedFps_ok h
  have hkeys : ReadsKeys fpsKeys (fpsKeys.map Prod.fst) := by decide +kernel
  refine ⟨⟨?_, fun files hfile => ?_⟩, fun files owner generation numeral hown howner hfile => ?_⟩
  · exact (fpsSettings_writable hbounds debug).storable hkeys
      (show ∀ key ∈ fpsKeys.map Prod.fst, _ by decide +kernel) (show 4 ≤ 256 by decide)
  · refine loads_read ?_
    rw [hfile]
    simp only [parseFps_writeFps hbounds]
    exact loads_pure _
  · exact loads_loadApplied hfile howner (parseAppliedDisplay_receipt hbounds debug hown)

theorem overlay_round_trip {value : Value} {overlay : Overlay}
    (h : validatedDebugOverlay value = .ok overlay) :
    ∃ text, writeDebugOverlay value = .ok text ∧
      RoundTrip .overlay text loadDebugOverlay (some overlay, none) ∧
      ReceiptTrip .overlay text loadAppliedDebugOverlay overlay := by
  have hbounds := validatedDebugOverlay_ok h
  have hkeys : ReadsKeys debugOverlayKeys (debugOverlayKeys.map Prod.fst) := by decide +kernel
  refine ⟨overlayText overlay, by rw [writeDebugOverlay, h]; rfl, ⟨?_, fun files hfile => ?_⟩,
    fun files owner generation numeral hown howner hfile => ?_⟩
  · exact (overlaySettings_writable hbounds).storable hkeys
      (show ∀ key ∈ debugOverlayKeys.map Prod.fst, _ by decide +kernel) (show 5 ≤ 256 by decide)
  · exact loads_loadOptional hfile (parseDebugOverlay_overlayText hbounds)
  · exact loads_loadApplied hfile howner (parseAppliedOverlay_receipt hbounds hown)

theorem cursor_round_trip (enabled : Bool) :
    ∃ text, writeCursor (.bool enabled) = .ok text ∧
      RoundTrip .cursor text loadCursor (some enabled, none) ∧
      ReceiptTrip .cursor text loadAppliedCursor enabled := by
  have hkeys : ReadsKeys cursorKeys (cursorKeys.map Prod.fst) := by decide +kernel
  refine ⟨cursorText enabled, rfl, ⟨?_, fun files hfile => ?_⟩,
    fun files owner generation numeral hown howner hfile => ?_⟩
  · exact (cursorSettings_writable enabled).storable hkeys
      (show ∀ key ∈ cursorKeys.map Prod.fst, _ by decide +kernel) (show 1 ≤ 256 by decide)
  · exact loads_loadOptional hfile (parseCursor_cursorText enabled)
  · exact loads_loadApplied hfile howner (parseAppliedCursor_receipt enabled hown)

/-- A receipt of a rotation, which is read while the process of the owner lives. -/
def RotationTrip (text : List Char) (rotation : Rotation) : Prop :=
  ∀ component files owner generation pid numeral, Owns owner generation numeral →
    matchOwner owner = some (generation, pid) → 1 ≤ pid → pid ≤ 2 ^ 31 - 1 →
    files .owner = some owner →
      files (.applied .rotation) = some (receiptText numeral text) →
        Loads (loadAppliedRotation component) files (some ⟨rotation, generation⟩, none) (· = pid)

theorem rotation_round_trip {name : String} {rotation : Rotation}
    (h : Rotation.of name = some rotation) : ∃ text, writeRotation (.str name) = .ok text ∧
      RoundTrip .rotation text loadRotation (rotation, none, true) ∧
      RotationTrip text rotation := by
  refine ⟨rotationText name, ?_, ⟨?_, fun files hfile => ?_⟩, ?_⟩
  · have hsome : (Rotation.of name).isSome = true := by rw [h]; rfl
    simp only [writeRotation, hsome, if_true]
    rfl
  · refine storable_document ?_ (show 1 ≤ 256 by decide)
    rw [List.forall_mem_singleton]
    have hmem := rotation_cases h
    simp only [List.mem_cons, List.not_mem_nil, or_false, Prod.mk.injEq] at hmem
    have hall : ∀ line : List Char, (line.all (fun c => decide (0 < c.toNat ∧ c.toNat < 128)) &&
        decide (line.length ≤ 63)) = true →
        (∀ c ∈ line, 0 < c.toNat ∧ c.toNat < 128) ∧ line.length ≤ 63 := by
      intro line hline
      rw [Bool.and_eq_true, List.all_eq_true, decide_eq_true_eq] at hline
      exact ⟨fun c hc => of_decide_eq_true (hline.1 c hc), hline.2⟩
    rcases hmem with ⟨rfl, rfl⟩ | ⟨rfl, rfl⟩ | ⟨rfl, rfl⟩ | ⟨rfl, rfl⟩ <;>
      exact hall _ (by decide +kernel)
  · refine loads_read ?_
    rw [hfile]
    simp only [parseRotation_rotationText h]
    exact loads_pure _
  · intro component files owner generation pid numeral hown hmatch hpid hpid' howner hfile
    refine loads_read ?_
    rw [hfile]
    refine loads_bind (loads_attempt (loads_activeProvider hown.bound hpid hpid' howner hmatch)) ?_
    simp only [parseAppliedRotation_receipt h hown]
    exact loads_pure _

theorem calibration_round_trip {c : Calibration} (h : CalibrationBounds c) :
    Storable (writeCalibration c) ∧ loadCalibration (.ok (some (writeCalibration c))) =
      (c, none) := by
  refine ⟨?_, by simp only [loadCalibration, parseCalibration_writeCalibration h]⟩
  have hshort : ∀ key ∈ (calibrationSettings c).map Prod.fst, key.toList.length ≤ 52 := by
    rw [calibrationSettings_keys]
    decide +kernel
  have hlines := (calibrationSettings_writable h).lines (readsKeys_calibration c) hshort
  rw [writeCalibration_eq]
  refine storable_document ?_ ?_
  · rw [List.forall_mem_cons]
    have hascii : "# Managed atomically by MSYS HAL CH347 control".toList.all
        (fun c => decide (0 < c.toNat ∧ c.toNat < 128)) = true := by decide
    refine ⟨⟨fun c hc => ?_, by decide +kernel⟩, hlines⟩
    exact of_decide_eq_true (List.all_eq_true.mp hascii c hc)
  · rw [List.length_cons, List.length_map, numberItems, List.length_map, calibrationSettings,
      List.length_map]
    decide

/-! ## The calibrations that are written -/

/-- The calibrations that `set_state` may write: a full object that passed the
    validator, or a partial one over the defaults or over another of them. -/
inductive WrittenCalibration : Calibration → Prop
  | whole {value : Value} {c : Calibration} (h : validatedCalibration value true = .ok c) :
    WrittenCalibration c
  | defaults {value : Value} {c : Calibration} (h : validatedCalibration value false = .ok c) :
    WrittenCalibration c
  | onto {value : Value} {base c : Calibration} (hbase : WrittenCalibration base)
    (h : validatedCalibration value false (some base) = .ok c) : WrittenCalibration c

theorem WrittenCalibration.bounds {c : Calibration} (h : WrittenCalibration c) :
    CalibrationBounds c := by
  induction h with
  | whole h => exact validatedCalibration_ok (fun b (hb : b ∈ none) => nomatch hb) h
  | defaults h => exact validatedCalibration_ok (fun b (hb : b ∈ none) => nomatch hb) h
  | onto _ h ih => exact validatedCalibration_ok (fun _ hb => Option.some.inj hb ▸ ih) h

/-- Every document is read back as the value it was written from; after the line of
    a generation of at most `2^31 - 1` that is the owner's, the receipt is accepted
    with the same value, for the rotation while the owner's process lives. -/
theorem documents_round_trip :
    (∀ debugEnabled fps idleFps debug f i, validatedFps debugEnabled fps idleFps = .ok
      (debug, f, i) → RoundTrip .fps (writeFps debug f i) loadFps (⟨debug, f, f, i⟩, none) ∧
        ReceiptTrip .display (writeFps debug f i) loadAppliedDisplayConfig ⟨debug, f, f, i⟩) ∧
    (∀ value overlay, validatedDebugOverlay value = .ok overlay →
      ∃ text, writeDebugOverlay value = .ok text ∧
        RoundTrip .overlay text loadDebugOverlay (some overlay, none) ∧
        ReceiptTrip .overlay text loadAppliedDebugOverlay overlay) ∧
    (∀ enabled, ∃ text, writeCursor (.bool enabled) = .ok text ∧
      RoundTrip .cursor text loadCursor (some enabled, none) ∧
      ReceiptTrip .cursor text loadAppliedCursor enabled) ∧
    (∀ c, WrittenCalibration c → Storable (writeCalibration c) ∧
      loadCalibration (.ok (some (writeCalibration c))) = (c, none)) ∧
    (∀ name rotation, Rotation.of name = some rotation →
      ∃ text, writeRotation (.str name) = .ok text ∧
        RoundTrip .rotation text loadRotation (rotation, none, true) ∧
        RotationTrip text rotation) :=
  ⟨fun _ _ _ _ _ _ h => fps_round_trip h, fun _ _ h => overlay_round_trip h, cursor_round_trip,
    fun _ h => calibration_round_trip h.bounds, fun _ _ h => rotation_round_trip h⟩

namespace Sample

/-- An overlay with three items, not in their order. -/
def overlayValue : Value :=
  .dict [(.str "enabled", .bool true), (.str "alpha", .int 128), (.str "scale", .int 2),
    (.str "items", .list [.str "cpu", .str "fps", .str "memory"]), (.str "interval_ms", .int 1000)]

/-- What is accepted of it. -/
def overlay : Overlay := ⟨true, 128, 2, ["fps", "memory", "cpu"], 1000⟩

/-- An owner of the fifth generation. -/
def owner : List Char := "5:100:7".toList

/-- A file of the overlay and its receipt in that generation. -/
def overlayFiles (text : List Char) : Files
  | .owner => some owner
  | .setting .overlay => some text
  | .applied .overlay => some (receiptText "5".toList text)
  | _ => none

theorem owns : Owns owner 5 "5".toList where
  owned := by decide +kernel
  bound := by decide
  digits := by decide
  value := by decide

/-- The receipt of a rotation in that generation. -/
def rotationFiles : Files
  | .owner => some owner
  | .applied .rotation => some (receiptText "5".toList (rotationText "left"))
  | _ => none

/-- No process lives, and the provider leaves the files alone. -/
def stopped : Nat → Turn := fun _ => { alive := fun _ => false }

/-- An owner of a generation that no receipt may carry. -/
def lateOwner : List Char := "2147483648:100:5".toList

/-- The receipt of the default frame rates in that generation. -/
def lateReceipt : List Char := receiptText "2147483648".toList (writeFps false 60 0)

/-- The files of that owner. -/
def lateFiles : Files
  | .owner => some lateOwner
  | .applied .display => some lateReceipt
  | _ => none

private theorem lateReceipt_refused : ∃ e, parseAppliedDisplay lateReceipt lateOwner = .error e ∧
    e.message = "provider generation is outside 0..2147483647" := by
  have hmessage : (match parseAppliedDisplay lateReceipt lateOwner with
      | .ok _ => ""
      | .error e => e.message) = "provider generation is outside 0..2147483647" := by
    decide +kernel
  cases hparse : parseAppliedDisplay lateReceipt lateOwner with
  | ok applied =>
    rw [hparse] at hmessage
    have hne : ¬ "" = "provider generation is outside 0..2147483647" := by decide
    exact absurd hmessage hne
  | error e =>
    rw [hparse] at hmessage
    exact ⟨e, rfl, hmessage⟩

end Sample

/-- An overlay of three items is read back, and so is its receipt. -/
theorem documents_round_trip_overlay : ∃ text, writeDebugOverlay Sample.overlayValue = .ok text ∧
    Loads loadDebugOverlay (Sample.overlayFiles text) (some Sample.overlay, none) ∧
    Loads loadAppliedDebugOverlay (Sample.overlayFiles text) (some ⟨Sample.overlay, 5⟩, none) := by
  have hvalue : validatedDebugOverlay Sample.overlayValue = .ok Sample.overlay := rfl
  obtain ⟨text, hwrite, htrip, hreceipt⟩ := documents_round_trip.2.1 _ _ hvalue
  exact ⟨text, hwrite, htrip.loads _ rfl, hreceipt _ _ _ _ Sample.owns rfl rfl⟩

/-- The owner token may name a generation of ten digits, the receipt may not; and the
    receipt of a rotation is refused when its owner does not run. -/
theorem receipt_refused :
    (validatedFps (.bool false) (.int 60) (.int 0) = .ok (false, 60, 0) ∧
      ownerGeneration Sample.lateOwner = some (Nat.ofDigitChars 10 "2147483648".toList 0) ∧
      Loads loadAppliedDisplayConfig Sample.lateFiles
        (none, some "provider generation is outside 0..2147483647")) ∧
    writeRotation (.str "left") = .ok (rotationText "left") ∧
      (loadAppliedRotation "a.b:c").run reloadMachine Sample.stopped Sample.rotationFiles =
        some ⟨.ok (none, some "CH347 display-output provider is not running"), Sample.rotationFiles,
          Sample.stopped⟩ := by
  refine ⟨⟨rfl, by decide +kernel, ?_⟩, rfl, rfl⟩
  obtain ⟨e, hparse, hmessage⟩ := Sample.lateReceipt_refused
  rw [← hmessage]
  exact loads_loadApplied_error rfl rfl hparse

end MsysHal.Ch347.Documents

import MsysHal.Spec.EnvFile

/-!
# Settings read back

The loaders of the frame rates, the debug overlay, the cursor and the rotation, over the
text that the backend writes for them and over a receipt with that text.

## Key results

- `loads_loadOptional`, `loads_loadApplied`: what a loader returns of the files
- `parseFps_writeFps`, `parseDebugOverlay_overlayText`, `parseCursor_cursorText`,
  `parseRotation_rotationText`: the settings
- `parseAppliedDisplay_receipt`, `parseAppliedOverlay_receipt`, `parseAppliedCursor_receipt`,
  `parseAppliedRotation_receipt`: the receipts
-/

namespace MsysHal.Ch347.Documents

open Interleave (Prog)
open Python (Value intText)
open Reload

/-! ## Loaders -/

/-- The provider leaves the files alone, and every read succeeds. -/
def Quiet (turns : Nat → Turn) : Prop := ∀ n, (turns n).steps = [] ∧ (turns n).fault = none

/-- What a loader returns of the files while some processes live. -/
def Loads {α : Type} (load : ReloadM α) (files : Files) (a : α)
    (alive : Nat → Prop := fun _ => False) : Prop :=
  ∀ turns, Quiet turns → (∀ n pid, alive pid → (turns n).alive pid = true) →
    ∃ n, load.run reloadMachine turns files = some ⟨.ok a, files, fun i => turns (i + n)⟩

section Loaders

variable {α β : Type} {files : Files} {alive : Nat → Prop}

theorem loads_pure (a : α) : Loads (pure a) files a alive := fun _ _ _ => ⟨0, rfl⟩

theorem loads_bind {load : ReloadM α} {f : α → ReloadM β} {a : α} {b : β}
    (h : Loads load files a alive) (hf : Loads (f a) files b alive) :
    Loads (load >>= f) files b alive := by
  intro turns hquiet halive
  obtain ⟨n, hrun⟩ := h turns hquiet halive
  obtain ⟨m, hrun'⟩ := hf (fun i => turns (i + n)) (fun i => hquiet (i + n)) fun i => halive (i + n)
  refine ⟨m + n, ?_⟩
  rw [Interleave.run_bind, hrun]
  simp only [hrun', Nat.add_assoc]

theorem loads_attempt {load : ReloadM α} {a : α} (h : Loads load files a alive) :
    Loads load.attempt files (.ok a) alive := by
  intro turns hquiet halive
  obtain ⟨n, hrun⟩ := h turns hquiet halive
  exact ⟨n, by rw [Interleave.run_attempt, hrun, Option.map_some]⟩

/-- One step, and what follows it. -/
private theorem loads_step {o : ReloadOp} {f : o.Ret → ReloadM α} {r : o.Ret} {a : α}
    (hexec : ∀ turn : Turn, turn.steps = [] → turn.fault = none →
      (∀ pid, alive pid → turn.alive pid = true) → reloadExec o turn files = some (r, files))
    (h : Loads (f r) files a alive) : Loads (Reload.op o >>= f) files a alive := by
  intro turns hquiet halive
  obtain ⟨n, hrun⟩ := h (fun i => turns (i + 1)) (fun i => hquiet (i + 1)) fun i => halive (i + 1)
  refine ⟨n + 1, ?_⟩
  change Prog.run reloadMachine (.step o f) turns files = _
  simp only [Prog.run, reloadMachine, hexec (turns 0) (hquiet 0).1 (hquiet 0).2 (halive 0)]
  exact hrun

theorem loads_read {file : RuntimeFile} {f : Except HalError (Option (List Char)) → ReloadM α}
    {a : α} (h : Loads (f (.ok (files file))) files a alive) :
    Loads (Reload.op (.read file) >>= f) files a alive := by
  refine loads_step (fun turn hsteps hfault _ => ?_) h
  simp only [reloadExec, hsteps, hfault, List.foldl_nil]

theorem loads_pidAlive {pid : Nat} (hpid : alive pid) {f : Bool → ReloadM α} {a : α}
    (h : Loads (f true) files a alive) : Loads (Reload.op (.pidAlive pid) >>= f) files a alive := by
  refine loads_step (fun turn hsteps _ halive => ?_) h
  simp only [reloadExec, hsteps, List.foldl_nil, halive pid hpid]

theorem loads_loadOptional {setting : Setting} {parse : List Char → Except HalError α}
    {text : List Char}
    {a : α} (hfile : files (.setting setting) = some text) (hparse : parse text = .ok a) :
    Loads (loadOptional setting parse) files (some a, none) := by
  refine loads_read ?_
  rw [hfile]
  simp only [hparse]
  exact loads_pure _

theorem loads_loadApplied {receipt : Receipt} {missing : String}
    {parse : List Char → List Char → Except HalError (Applied α)} {text owner : List Char}
    {a : Applied α}
    (hfile : files (.applied receipt) = some text) (howner : files .owner = some owner)
    (hparse : parse text owner = .ok a) :
    Loads (loadApplied receipt missing parse) files (some a, none) := by
  refine loads_read ?_
  rw [hfile]
  refine loads_read ?_
  rw [howner]
  simp only [hparse]
  exact loads_pure _

theorem loads_loadApplied_error {receipt : Receipt} {missing : String}
    {parse : List Char → List Char → Except HalError (Applied α)} {text owner : List Char}
    {e : HalError}
    (hfile : files (.applied receipt) = some text) (howner : files .owner = some owner)
    (hparse : parse text owner = .error e) :
    Loads (loadApplied receipt missing parse) files (none, some e.message) := by
  refine loads_read ?_
  rw [hfile]
  refine loads_read ?_
  rw [howner]
  simp only [hparse]
  exact loads_pure _

end Loaders

/-! ## Receipts -/

/-- A text after the line of a generation. -/
def receiptText (numeral text : List Char) : List Char :=
  lineOf ("MSYS_GENERATION", numeral) ++ '\n' :: text

theorem receiptText_document (numeral : List Char) (items : List (String × List Char)) :
    receiptText numeral (document (items.map lineOf)) =
      document ((("MSYS_GENERATION", numeral) :: items).map lineOf) := by
  rw [receiptText, List.map_cons, document, document, List.flatMap_cons, List.append_assoc,
    List.singleton_append]

/-- An owner token of a generation that a receipt may carry, and a numeral of that
    generation. -/
structure Owns (owner : List Char) (generation : Nat) (numeral : List Char) : Prop where
  owned : ownerGeneration owner = some generation
  bound : generation ≤ 2 ^ 31 - 1
  digits : isNumeral 10 numeral = true
  value : Nat.ofDigitChars 10 numeral 0 = generation

section Receipts

variable {owner numeral : List Char} {generation : Nat} (h : Owns owner generation numeral)

include h

theorem Owns.checkOwner (complaint : String) :
    Reload.checkOwner owner generation complaint = .ok () := by
  rw [Reload.checkOwner, h.owned, Option.map_some, if_pos rfl]

theorem Owns.integer : integer (.int generation) "provider generation" 0 (2 ^ 31 - 1) =
    .ok (generation : Int) :=
  integer_of_mem ⟨Int.natCast_nonneg _, by have := h.bound; omega⟩ _

/-- The reader of a receipt finds the generation and the numbers. -/
theorem Owns.assignmentsFrom {mapping : List (String × String)} {settings : List (String × Int)}
    (hkeys : ReadsKeys mapping ("MSYS_GENERATION" :: settings.map Prod.fst))
    (hsettings : Writable settings) (filename : String) (number : Nat) :
    assignmentsFrom mapping filename number
      (splitlines (receiptText numeral (document ((numberItems settings).map lineOf)))) [] =
        .ok (((mapping.lookup "MSYS_GENERATION").getD "", generation) ::
          settings.map (numberEntry mapping)) := by
  have hkeys :
      ReadsKeys mapping ((("MSYS_GENERATION", numeral) :: numberItems settings).map Prod.fst) := by
    rwa [List.map_cons, numberItems, List.map_map]
  have hitems : ∀ item ∈ ("MSYS_GENERATION", numeral) :: numberItems settings,
      isNumeral 10 item.2 = true := by
    rw [List.forall_mem_cons]
    exact ⟨h.digits, hsettings.isNumeral⟩
  rw [receiptText_document, hkeys.assignmentsFrom_document hitems, List.map_cons, hsettings.entries,
    entry, h.value]

end Receipts

theorem ok_bind {ε α β : Type} (a : α) (f : α → Except ε β) :
    (Except.ok a >>= f) = f a := rfl

/-! ## Frame rates -/

/-- The frame rates that pass the checks. -/
structure FpsBounds (fps idleFps : Int) : Prop where
  rate : 1 ≤ fps ∧ fps ≤ 240
  idle : 0 ≤ idleFps ∧ idleFps ≤ 60
  idle_le : idleFps ≤ fps

theorem integer_inv {value : Value} {label : String} {minimum maximum n : Int}
    (h : integer value label minimum maximum = .ok n) :
    value = .int n ∧ minimum ≤ n ∧ n ≤ maximum := by
  cases value with
  | int m =>
    simp only [integer] at h
    split at h
    · cases h
    · next hrange =>
      cases h
      rw [Bool.not_eq_true, Bool.or_eq_false_iff, decide_eq_false_iff_not,
        decide_eq_false_iff_not] at hrange
      exact ⟨rfl, by omega, by omega⟩
  | _ => cases h

theorem validatedFps_ok {debugEnabled fps idleFps : Value} {debug : Bool} {f i : Int}
    (h : validatedFps debugEnabled fps idleFps = .ok (debug, f, i)) : FpsBounds f i := by
  cases debugEnabled with
  | bool b =>
    change (integer fps "fps" 1 240 >>= _) = _ at h
    obtain ⟨f', hf, h⟩ := Except.bind_eq_ok_iff.mp h
    obtain ⟨i', hi, h⟩ := Except.bind_eq_ok_iff.mp h
    split at h
    · exact nomatch h
    · next hle =>
      cases h
      exact ⟨(integer_inv hf).2, (integer_inv hi).2, not_lt.mp hle⟩
  | _ => exact nomatch h

/-- The assignments of the frame rates. -/
def fpsSettings (debugEnabled : Bool) (fps idleFps : Int) : List (String × Int) :=
  [("DEBUG", flagInt debugEnabled), ("FPS", fps), ("XCAP_MAX_FPS", fps), ("XCAP_IDLE_FPS", idleFps)]

theorem flagInt_bounds (flag : Bool) : 0 ≤ flagInt flag ∧ flagInt flag < 10 ^ 10 := by
  cases flag <;> decide

theorem flagInt_le (flag : Bool) : ¬ (flagInt flag).toNat > 1 := by cases flag <;> decide

theorem flagInt_beq (flag : Bool) : ((flagInt flag).toNat == 1) = flag := by cases flag <;> rfl

section Fps

variable {fps idleFps : Int} (h : FpsBounds fps idleFps) (debug : Bool)

include h

theorem fpsSettings_writable : Writable (fpsSettings debug fps idleFps) := by
  obtain ⟨h₁, h₂, -⟩ := h
  simp only [Writable, fpsSettings, List.forall_mem_cons, List.not_mem_nil, IsEmpty.forall_iff,
    implies_true, and_true]
  exact ⟨flagInt_bounds debug, by omega, by omega, by omega⟩

/-- What the readers find of the frame rates. -/
private theorem FpsBounds.toNat :
    ((fps.toNat : Nat) : Int) = fps ∧ ((idleFps.toNat : Nat) : Int) = idleFps :=
  ⟨Int.toNat_of_nonneg (by have := h.rate; omega), Int.toNat_of_nonneg h.idle.1⟩

theorem parseFps_writeFps : parseFps (writeFps debug fps idleFps) =
    .ok ⟨debug, fps, fps, idleFps⟩ := by
  have hkeys : ReadsKeys fpsKeys (fpsKeys.map Prod.fst) := by decide +kernel
  obtain ⟨raw, hraw, hrequire, hd, hf, hm, hi⟩ : ∃ raw,
      Reload.assignments (writeFps debug fps idleFps) fpsKeys (.setting .fps) = .ok raw ∧
      requireFields ["fps", "max_fps", "idle_fps"] raw "CH347 FPS configuration is incomplete" =
        .ok () ∧
      raw.lookup "debug_enabled" = some (flagInt debug).toNat ∧ field raw "fps" = fps.toNat ∧
      field raw "max_fps" = fps.toNat ∧ field raw "idle_fps" = idleFps.toNat :=
    ⟨_, (fpsSettings_writable h debug).assignmentsFrom hkeys _ 1, rfl, rfl, rfl, rfl, rfl⟩
  have hidle : ¬ idleFps > fps := not_lt.mpr h.idle_le
  simp only [parseFps, hraw, ok_bind, hrequire, hd, Option.getD_some, if_neg (flagInt_le debug),
    hf, hm, hi, h.toNat.1, h.toNat.2, integer_of_mem h.rate, integer_of_mem h.idle, ne_eq,
    not_true_eq_false, if_false, if_neg hidle, flagInt_beq]
  rfl

theorem parseAppliedDisplay_receipt {owner numeral : List Char} {generation : Nat}
    (hown : Owns owner generation numeral) :
    parseAppliedDisplay (receiptText numeral (writeFps debug fps idleFps)) owner =
      .ok ⟨⟨debug, fps, fps, idleFps⟩, generation⟩ := by
  have hkeys : ReadsKeys (appliedKeys fpsKeys) ("MSYS_GENERATION" :: fpsKeys.map Prod.fst) := by
    decide +kernel
  obtain ⟨raw, hraw, hrequire, hd, hf, hm, hi, hg⟩ : ∃ raw,
      Reload.assignments (receiptText numeral (writeFps debug fps idleFps)) (appliedKeys fpsKeys)
        (.applied .display) = .ok raw ∧
      requireFields ((appliedKeys fpsKeys).map Prod.snd) raw
        "CH347 applied display configuration is incomplete" = .ok () ∧
      field raw "debug_enabled" = (flagInt debug).toNat ∧ field raw "fps" = fps.toNat ∧
      field raw "max_fps" = fps.toNat ∧ field raw "idle_fps" = idleFps.toNat ∧
      field raw "provider_generation" = generation :=
    ⟨_, hown.assignmentsFrom hkeys (fpsSettings_writable h debug) _ 1, rfl, rfl, rfl, rfl, rfl, rfl⟩
  have hidle : decide (idleFps > fps) = false := decide_eq_false (not_lt.mpr h.idle_le)
  simp only [parseAppliedDisplay, hraw, ok_bind, hrequire, hd, if_neg (flagInt_le debug), hf, hm,
    hi, h.toNat.1, h.toNat.2, integer_of_mem h.rate, integer_of_mem h.idle, receiptGeneration, hg,
    hown.integer, ne_eq, not_true_eq_false, decide_false, hidle, Bool.or_self, Bool.false_eq_true,
    if_false, hown.checkOwner, flagInt_beq]
  rfl

end Fps

/-! ## The debug overlay -/

/-- The names of the items, in the order of their bits. -/
def itemNames : List String := debugOverlayItemBits.map Prod.fst

/-- An overlay that passes the checks: its items are in the order of their bits. -/
structure OverlayBounds (overlay : Overlay) : Prop where
  alpha : 0 ≤ overlay.alpha ∧ overlay.alpha ≤ 255
  scale : 1 ≤ overlay.scale ∧ overlay.scale ≤ 2
  interval : 250 ≤ overlay.intervalMs ∧ overlay.intervalMs ≤ 5000
  items : overlay.items.Sublist itemNames
  ne_nil : overlay.items ≠ []

/-- Known items are among the items in the order of their bits. -/
private theorem filter_contains_ne_nil {items : List String}
    (h : ¬ (items.isEmpty || !items.Nodup ||
      items.any fun item => (debugOverlayItemBits.lookup item).isNone) = true) :
    itemNames.filter items.contains ≠ [] := by
  simp only [Bool.or_eq_true, not_or, Bool.not_eq_true, List.isEmpty_eq_false_iff,
    List.any_eq_false] at h
  obtain ⟨⟨hne, -⟩, hknown⟩ := h
  obtain ⟨item, items', rfl⟩ := List.exists_cons_of_ne_nil hne
  intro hnil
  have hnone : debugOverlayItemBits.lookup item = none := by
    rw [List.lookup_eq_none_iff]
    intro p hp
    rw [bne_iff_ne]
    rintro rfl
    refine List.filter_eq_nil_iff.mp hnil p.1 (List.mem_map_of_mem hp) ?_
    rw [List.contains_iff_mem]
    exact List.mem_cons_self ..
  have hlookup := hknown item (List.mem_cons_self ..)
  rw [hnone] at hlookup
  exact nomatch hlookup

theorem validatedDebugOverlay_ok {value : Value} {overlay : Overlay}
    (h : validatedDebugOverlay value = .ok overlay) : OverlayBounds overlay := by
  cases value with
  | dict members =>
    simp only [validatedDebugOverlay, pure_bind] at h
    split at h
    · exact nomatch h
    · cases henabled : member members "enabled" with
      | bool b =>
        rw [henabled] at h
        obtain ⟨alpha, halpha, h⟩ := Except.bind_eq_ok_iff.mp h
        obtain ⟨scale, hscale, h⟩ := Except.bind_eq_ok_iff.mp h
        obtain ⟨interval, hinterval, h⟩ := Except.bind_eq_ok_iff.mp h
        split at h
        · exact nomatch h
        · split at h
          · exact nomatch h
          · next items _ hitems =>
            cases h
            exact ⟨(integer_inv halpha).2, (integer_inv hscale).2, (integer_inv hinterval).2,
              List.filter_sublist, filter_contains_ne_nil hitems⟩
      | _ => rw [henabled] at h; exact nomatch h
  | _ => exact nomatch h

/-- The items of an overlay, and the mask they are written as. -/
private theorem mask_items : ∀ items ∈ itemNames.sublists, items ≠ [] →
    maskItems (itemsMask items) = items ∧
    (1 ≤ (itemsMask items : Int) ∧ (itemsMask items : Int) ≤ 63) ∧
      (items.isEmpty || !items.Nodup ||
        items.any fun item => (debugOverlayItemBits.lookup item).isNone) = false ∧
      itemNames.filter items.contains = items := by
  decide +kernel

/-- The assignments of an overlay. -/
def overlaySettings (overlay : Overlay) : List (String × Int) :=
  [("CH347_DEBUG_OVERLAY", flagInt overlay.enabled), ("CH347_DEBUG_OVERLAY_ALPHA", overlay.alpha),
    ("CH347_DEBUG_OVERLAY_SCALE", overlay.scale),
    ("CH347_DEBUG_OVERLAY_ITEMS", itemsMask overlay.items),
    ("CH347_DEBUG_OVERLAY_INTERVAL_MS", overlay.intervalMs)]

section Overlays

variable {overlay : Overlay} (h : OverlayBounds overlay)

include h

private theorem OverlayBounds.mask : maskItems (itemsMask overlay.items) = overlay.items ∧
    (1 ≤ (itemsMask overlay.items : Int) ∧ (itemsMask overlay.items : Int) ≤ 63) ∧
    (overlay.items.isEmpty || !overlay.items.Nodup ||
      overlay.items.any fun item => (debugOverlayItemBits.lookup item).isNone) = false ∧
    itemNames.filter overlay.items.contains = overlay.items :=
  mask_items _ (List.mem_sublists.mpr h.items) h.ne_nil

theorem overlaySettings_writable : Writable (overlaySettings overlay) := by
  obtain ⟨-, hmask, -⟩ := h.mask
  obtain ⟨h₁, h₂, h₃, -, -⟩ := h
  simp only [Writable, overlaySettings, List.forall_mem_cons, List.not_mem_nil, IsEmpty.forall_iff,
    implies_true, and_true]
  exact ⟨flagInt_bounds _, by omega, by omega, by omega, by omega⟩

/-- The numbers of an overlay are checked as they were. -/
private theorem OverlayBounds.validated :
    Reload.validatedDebugOverlay ⟨overlay.enabled, overlay.alpha,
    overlay.scale, overlay.items, overlay.intervalMs⟩ = .ok overlay := by
  obtain ⟨-, -, hvalid, hfilter⟩ := h.mask
  rw [Reload.validatedDebugOverlay, integer_of_mem h.alpha, ok_bind,
    integer_of_mem h.scale, ok_bind, integer_of_mem h.interval, ok_bind,
    if_neg (by rw [hvalid]; exact Bool.false_ne_true)]
  change Except.ok (Overlay.mk _ _ _ (itemNames.filter overlay.items.contains) _) = _
  rw [hfilter]

private theorem OverlayBounds.toNat : ((overlay.alpha.toNat : Nat) : Int) = overlay.alpha ∧
    ((overlay.scale.toNat : Nat) : Int) = overlay.scale ∧
    ((overlay.intervalMs.toNat : Nat) : Int) = overlay.intervalMs := by
  obtain ⟨h₁, h₂, h₃, -, -⟩ := h
  exact ⟨Int.toNat_of_nonneg h₁.1, Int.toNat_of_nonneg (by omega), Int.toNat_of_nonneg (by omega)⟩

theorem parseDebugOverlay_overlayText : parseDebugOverlay (overlayText overlay) = .ok overlay := by
  have hkeys : ReadsKeys debugOverlayKeys (debugOverlayKeys.map Prod.fst) := by decide +kernel
  obtain ⟨raw, hraw, hrequire, he, ha, hs, hm, hi⟩ : ∃ raw,
      Reload.assignments (overlayText overlay) debugOverlayKeys (.setting .overlay) = .ok raw ∧
      requireFields (debugOverlayKeys.map Prod.snd) raw
        "CH347 debug overlay configuration is incomplete" = .ok () ∧
      field raw "enabled" = (flagInt overlay.enabled).toNat ∧
      field raw "alpha" = overlay.alpha.toNat ∧ field raw "scale" = overlay.scale.toNat ∧
      field raw "items_mask" = itemsMask overlay.items ∧
      field raw "interval_ms" = overlay.intervalMs.toNat :=
    ⟨_, (overlaySettings_writable h).assignmentsFrom hkeys _ 1, rfl, rfl, rfl, rfl, rfl, rfl⟩
  obtain ⟨hitems, hmask, -⟩ := h.mask
  simp only [parseDebugOverlay, hraw, ok_bind, hrequire, he, if_neg (flagInt_le overlay.enabled),
    ha, hs, hm, hi, h.toNat.1, h.toNat.2.1, h.toNat.2.2, integer_of_mem hmask, hitems, flagInt_beq]
  exact h.validated

theorem parseAppliedOverlay_receipt {owner numeral : List Char} {generation : Nat}
    (hown : Owns owner generation numeral) :
    parseAppliedOverlay (receiptText numeral (overlayText overlay)) owner =
      .ok ⟨overlay, generation⟩ := by
  have hkeys : ReadsKeys (appliedKeys debugOverlayKeys)
      ("MSYS_GENERATION" :: debugOverlayKeys.map Prod.fst) := by decide +kernel
  obtain ⟨raw, hraw, hrequire, he, ha, hs, hm, hi, hg⟩ : ∃ raw,
      Reload.assignments (receiptText numeral (overlayText overlay)) (appliedKeys debugOverlayKeys)
        (.applied .overlay) = .ok raw ∧
      requireFields ((appliedKeys debugOverlayKeys).map Prod.snd) raw
        "CH347 applied debug overlay configuration is incomplete" = .ok () ∧
      field raw "enabled" = (flagInt overlay.enabled).toNat ∧
      field raw "alpha" = overlay.alpha.toNat ∧ field raw "scale" = overlay.scale.toNat ∧
      field raw "items_mask" = itemsMask overlay.items ∧
      field raw "interval_ms" = overlay.intervalMs.toNat ∧
      field raw "provider_generation" = generation :=
    ⟨_, hown.assignmentsFrom hkeys (overlaySettings_writable h) _ 1, rfl, rfl, rfl, rfl,
      rfl, rfl, rfl⟩
  obtain ⟨hitems, hmask, -⟩ := h.mask
  simp only [parseAppliedOverlay, hraw, ok_bind, hrequire, he,
    if_neg (flagInt_le overlay.enabled), ha, hs, hm, hi, h.toNat.1, h.toNat.2.1, h.toNat.2.2,
    receiptGeneration, hg, hown.integer, hown.checkOwner, integer_of_mem hmask, hitems,
    flagInt_beq, h.validated]
  rfl

end Overlays

/-! ## The cursor -/

/-- The assignment of the cursor. -/
def cursorSettings (enabled : Bool) : List (String × Int) := [("CH347_CURSOR", flagInt enabled)]

theorem cursorSettings_writable (enabled : Bool) : Writable (cursorSettings enabled) := by
  simp only [Writable, cursorSettings, List.forall_mem_singleton]
  exact flagInt_bounds enabled

/-- The text of the cursor. -/
def cursorText (enabled : Bool) : List Char :=
  document [settingLine "CH347_CURSOR" (flagInt enabled)]

theorem parseCursor_cursorText (enabled : Bool) :
    parseCursor (cursorText enabled) = .ok enabled := by
  have hkeys : ReadsKeys cursorKeys (cursorKeys.map Prod.fst) := by decide +kernel
  have hraw : Reload.assignments (cursorText enabled) cursorKeys (.setting .cursor) =
      .ok [("enabled", (flagInt enabled).toNat)] :=
    (cursorSettings_writable enabled).assignmentsFrom hkeys _ 1
  rw [parseCursor, hraw]
  cases enabled <;> rfl

theorem parseAppliedCursor_receipt (enabled : Bool) {owner numeral : List Char} {generation : Nat}
    (hown : Owns owner generation numeral) :
    parseAppliedCursor (receiptText numeral (cursorText enabled)) owner =
      .ok ⟨enabled, generation⟩ := by
  have hkeys : ReadsKeys (appliedKeys cursorKeys)
      ("MSYS_GENERATION" :: cursorKeys.map Prod.fst) := by
    decide +kernel
  obtain ⟨raw, hraw, hnone, he, hg⟩ : ∃ raw,
      Reload.assignments (receiptText numeral (cursorText enabled)) (appliedKeys cursorKeys)
        (.applied .cursor) = .ok raw ∧
      ((raw.lookup "enabled").isNone || (raw.lookup "provider_generation").isNone) = false ∧
      field raw "enabled" = (flagInt enabled).toNat ∧ field raw "provider_generation" =
        generation :=
    ⟨_, hown.assignmentsFrom hkeys (cursorSettings_writable enabled) _ 1, rfl, rfl, rfl⟩
  simp only [parseAppliedCursor, hraw, ok_bind, hnone, Bool.false_eq_true, if_false, he,
    if_neg (flagInt_le enabled), receiptGeneration, hg, hown.integer, hown.checkOwner, flagInt_beq]
  rfl

/-! ## The rotation -/

/-- The text of a rotation. -/
def rotationText (name : String) : List Char :=
  document ["CH347_DISPLAY_ROTATION=".toList ++ name.toList]

/-- The names of the rotations. -/
theorem rotation_cases {name : String} {rotation : Rotation}
    (h : Rotation.of name = some rotation) :
    (name, rotation) ∈ [("normal", Rotation.normal), ("right", .right), ("left", .left),
      ("inverted", .inverted)] := by
  unfold Rotation.of at h
  split at h <;> first | (cases h; decide) | exact nomatch h

theorem parseRotation_rotationText {name : String} {rotation : Rotation}
    (h : Rotation.of name = some rotation) : parseRotation (rotationText name) = .ok rotation := by
  have hmem := rotation_cases h
  simp only [List.mem_cons, List.not_mem_nil, or_false, Prod.mk.injEq] at hmem
  rcases hmem with ⟨rfl, rfl⟩ | ⟨rfl, rfl⟩ | ⟨rfl, rfl⟩ | ⟨rfl, rfl⟩ <;> rfl

/-- A receipt of a rotation. -/
theorem matchAppliedRotation_receipt {name : String} {rotation : Rotation}
    (h : Rotation.of name = some rotation) {numeral : List Char}
    (hnumeral : isNumeral 10 numeral = true) :
    matchAppliedRotation (receiptText numeral (rotationText name)) =
      some (Nat.ofDigitChars 10 numeral 0, rotation) := by
  have hname : '\n' ∉ name.toList ∧
      matchRotation ("CH347_DISPLAY_ROTATION=".toList ++ name.toList) = some rotation := by
    have hmem := rotation_cases h
    simp only [List.mem_cons, List.not_mem_nil, or_false, Prod.mk.injEq] at hmem
    rcases hmem with ⟨rfl, rfl⟩ | ⟨rfl, rfl⟩ | ⟨rfl, rfl⟩ | ⟨rfl, rfl⟩ <;>
      exact ⟨by decide +kernel, rfl⟩
  -- Neither line holds a newline, so the text splits at the one between them.
  have hsecond : ∀ c ∈ "CH347_DISPLAY_ROTATION=".toList ++ name.toList, (c == '\n') = false := by
    intro c hc
    rw [beq_eq_false_iff_ne]
    rintro rfl
    rcases List.mem_append.mp hc with hc | hc
    · exact absurd hc (by decide +kernel)
    · exact hname.1 hc
  have hfirst : ∀ c ∈ "MSYS_GENERATION=".toList ++ numeral, (c == '\n') = false := by
    intro c hc
    rw [beq_eq_false_iff_ne]
    rintro rfl
    rcases List.mem_append.mp hc with hc | hc
    · exact absurd hc (by decide +kernel)
    · exact absurd (numeral_char hnumeral _ hc).1 (by decide)
  have htext : chomp (receiptText numeral (rotationText name)) =
      ("MSYS_GENERATION=".toList ++ numeral) ++ '\n' ::
        ("CH347_DISPLAY_ROTATION=".toList ++ name.toList) := by
    have heq : receiptText numeral (rotationText name) =
        (("MSYS_GENERATION=".toList ++ numeral) ++ '\n' ::
          ("CH347_DISPLAY_ROTATION=".toList ++ name.toList)) ++ ['\n'] := by
      have hmark : "MSYS_GENERATION=".toList = "MSYS_GENERATION".toList ++ ['='] := by
        decide +kernel
      simp only [receiptText, rotationText, lineOf, document, List.flatMap_cons, List.flatMap_nil,
        List.append_nil, List.append_assoc, List.cons_append, hmark, List.nil_append]
    rw [heq, chomp, List.getLast?_concat, if_pos rfl, List.dropLast_concat]
  have hgeneration : matchGeneration ("MSYS_GENERATION=".toList ++ numeral) =
      some (Nat.ofDigitChars 10 numeral 0) := by
    have hstart :
        "MSYS_GENERATION=".toList.isPrefixOf ("MSYS_GENERATION=".toList ++ numeral) = true :=
      List.isPrefixOf_iff_prefix.mpr (List.prefix_append _ _)
    simp only [matchGeneration, hstart, List.drop_left, hnumeral, Bool.and_self, if_true]
  have hsplit : (chomp (receiptText numeral (rotationText name))).splitOn '\n' =
      ["MSYS_GENERATION=".toList ++ numeral, "CH347_DISPLAY_ROTATION=".toList ++ name.toList] := by
    rw [htext, List.splitOn, List.splitOnP_append_cons _ _ (by decide),
      List.splitOnP_eq_singleton hfirst, List.splitOnP_eq_singleton hsecond, List.singleton_append]
  simp only [matchAppliedRotation, hsplit, hgeneration, hname.2]

theorem parseAppliedRotation_receipt {name : String} {rotation : Rotation}
    (h : Rotation.of name = some rotation) {owner numeral : List Char} {generation : Nat}
    (hown : Owns owner generation numeral) :
    parseAppliedRotation (receiptText numeral (rotationText name)) generation =
      .ok ⟨rotation, generation⟩ := by
  rw [parseAppliedRotation, matchAppliedRotation_receipt h hown.digits, hown.value]
  change (integer (.int generation) "provider generation" 0 (2 ^ 31 - 1) >>= _) = _
  rw [hown.integer, ok_bind, if_neg (fun hne => hne rfl)]
  rfl

end MsysHal.Ch347.Documents

import MsysHal.Spec.Touch

/-!
# Touch calibration over whole runs

Runs of the CH347 backend: any sequence of calls and watcher rounds, under any
pattern of failures of the environment.

## Key results

- `calibration_transactional`: who may change the persisted document, and that a
  token is used once
- `confirmed_is_in_effect`: what a confirm that returns leaves behind, while no
  rollback has failed after its runtime write
- `preview_has_watcher`: an active preview has a running watcher, while every
  watcher starts and no rollback of a watcher fails
-/

namespace MsysHal.Ch347

open Python (Value PyFloat)
open Interleave (Prog Path Issues Outcome wp_of_run wp_bind wp_pure wp_mono)

/-! ## Runs -/

/-- One call of a run: what it saw, how it ended, and the states around it. -/
structure TouchEvent where
  call : Call
  log : TouchLog
  result : Except PyError Unit
  before : Backend
  after : Backend

/-- The backend has just been constructed: no preview has been started yet. -/
def Backend.Fresh (s : Backend) : Prop := s.preview = none ∧ s.watchers = []

/-- The call can end this way, for some answers of the environment. The recovery
    is made only when the backend has just been constructed. -/
def TouchEvent.Happens (C : Config) (e : TouchEvent) : Prop :=
  (e.call = .recover → e.before.Fresh) ∧ ∃ ω ω',
    (program C e.call).run touchMachine ω e.before = some ⟨e.result, e.after, ω'⟩ ∧
    (program C e.call).log touchMachine ω e.before = e.log

/-- A run of the backend: each call starts where the one before it ended. -/
def TouchRun (C : Config) : Backend → List TouchEvent → Backend → Prop
  | s, [], s' => s = s'
  | s, e :: es, s' => e.before = s ∧ e.Happens C ∧ TouchRun C e.after es s'

/-- What a call of a run does. -/
theorem TouchEvent.Happens.change {C : Config} {e : TouchEvent} (h : e.Happens C) :
    Change C e.before e.log e.call e.after := by
  obtain ⟨hstart, ω, ω', hrun, hlog⟩ := h
  have := wp_of_run (program_spec C e.call e.before fun hc => (hstart hc).1) hrun
  rwa [hlog] at this

/-- An invariant of the calls that satisfy a condition holds in every state of a
    run of such calls. -/
theorem TouchRun.invariant {C : Config} {I : Backend → Prop} {A : TouchEvent → Prop}
    (hstep : ∀ e : TouchEvent, e.Happens C → A e → I e.before → I e.after) {s s' : Backend}
    {es : List TouchEvent} (h : TouchRun C s es s') (hs : I s) (hA : ∀ e ∈ es, A e) :
    I s' ∧ ∀ e ∈ es, I e.before ∧ I e.after := by
  induction es generalizing s with
  | nil => exact ⟨h ▸ hs, fun e he => nomatch he⟩
  | cons e es ih =>
    obtain ⟨hbefore, hhappens, hrest⟩ := h
    have hI : I e.before := hbefore ▸ hs
    have hafter := hstep e hhappens (hA e (List.mem_cons_self ..)) hI
    obtain ⟨hend, hall⟩ := ih hrest hafter fun x hx => hA x (List.mem_cons_of_mem _ hx)
    refine ⟨hend, fun x hx => ?_⟩
    rcases List.mem_cons.mp hx with rfl | hx
    · exact ⟨hI, hafter⟩
    · exact hall x hx

theorem TouchRun.happens {C : Config} {s s' : Backend} {es : List TouchEvent}
    (h : TouchRun C s es s') : ∀ e ∈ es, e.Happens C := by
  induction es generalizing s with
  | nil => exact fun e he => nomatch he
  | cons e es ih =>
    intro x hx
    rcases List.mem_cons.mp hx with rfl | hx
    · exact h.2.1
    · exact ih h.2.2 x hx

/-! ## Runs on given answers -/

/-- The calls of a list, each with the answers of its environment. -/
def replay (C : Config) : List (Call × (Nat → (o : TouchOp) → o.Env)) → Backend →
    Option (List TouchEvent × Backend)
  | [], s => some ([], s)
  | (call, ω) :: rest, s =>
    match (program C call).run touchMachine ω s with
    | none => none
    | some out => (replay C rest out.state).map fun p =>
      (⟨call, (program C call).log touchMachine ω s, out.result, s, out.state⟩ :: p.1, p.2)

theorem touchRun_of_replay {C : Config} {calls : List (Call × (Nat → (o : TouchOp) → o.Env))}
    (hrecover : ∀ c ∈ calls, c.1 ≠ .recover) {s s' : Backend} {es : List TouchEvent}
    (h : replay C calls s = some (es, s')) : TouchRun C s es s' := by
  induction calls generalizing s es with
  | nil =>
    cases h
    rfl
  | cons c calls ih =>
    obtain ⟨call, ω⟩ := c
    simp only [replay] at h
    split at h
    · exact nomatch h
    · next out hrun =>
      obtain ⟨⟨es', s''⟩, hrest, heq⟩ := Option.map_eq_some_iff.mp h
      cases heq
      refine ⟨rfl, ⟨fun hc => absurd hc (hrecover _ (List.mem_cons_self ..)), ω, out.inputs, hrun,
        rfl⟩, ih (fun c hc => hrecover c (List.mem_cons_of_mem _ hc)) hrest⟩

namespace Sample

def config : Config := ⟨floats, "org.msys.openstick.ch347:x11-spi-touch-output"⟩

/-- The matrix `[0.5, 0, 0, 0, 1, 0, 0, 0, 1]`. -/
def half : Affine := #v[1 / 2, 0, 0, 0, 1, 0, 0, 0, 1]

/-- The receipt of generation 1 for a revision and a matrix. -/
def receipt (revision : Nat) (m : Affine) : List Char :=
  "MSYS_GENERATION=1".toList ++ '\n' :: affineEffectiveText floats revision m

/-- An environment with the given receipt and clock; `delivered` tells whether
    the signal reaches the provider. -/
def env (applied : List Char) (now : ℚ) (delivered : Bool) : (o : TouchOp) → o.Env
  | .read _ => none
  | .write _ _ => none
  | .readApplied => .ok (some applied)
  | .readOwner => .ok (some "1:100:5\n".toList)
  | .pidAlive _ => true
  | .signal _ => delivered
  | .polls => 1
  | .configured => true
  | .othersApplied => true
  | .loadBasis => { rotation := .normal, width := 320, height := 480 }
  | .clock => now
  | .newToken => "AbCdEfGhIjKlMnOpQrStUvWx"
  | .startWatcher _ => true
  | .settings => .ok (false, true)
  | .external _ => .ok ()
  | .slot | .install _ | .clear _ | .wake _ | .endWatcher _ => ()

/-- Nothing has been calibrated yet. -/
def initial : Backend where
  persistent := some (affineStateText floats 0 identityAffine none)
  effective := some (affineEffectiveText floats 0 identityAffine)
  preview := none
  watchers := []

theorem initial_fresh : initial.Fresh := ⟨rfl, rfl⟩

/-- Preview `half` for one second. The provider applies it after the runtime
    write, which is the ninth step. -/
def preview : Call × (Nat → (o : TouchOp) → o.Env) :=
  (.preview [(.str "matrix", .list [.float (.finite (1 / 2) "0.5"), .int 0, .int 0, .int 0, .int 1,
      .int 0, .int 0, .int 0, .int 1]), (.str "ttl_ms", .int 1000),
      (.str "expected_revision", .int 0),
      (.str "basis", .object [("rotation", .str "normal"), ("width", .int 320),
        ("height", .int 480)])],
    fun n => if n < 8 then env (receipt 0 identityAffine) 0 true else env (receipt 1 half) 0 true)

def token : Value := .str "AbCdEfGhIjKlMnOpQrStUvWx"

/-- Confirm while the receipt shows the preview. -/
def confirm : Call × (Nat → (o : TouchOp) → o.Env) :=
  (.confirm token, fun _ => env (receipt 1 half) 0 true)

/-- Cancel while the signal does not reach the provider. -/
def cancelFails : Call × (Nat → (o : TouchOp) → o.Env) :=
  (.cancel token, fun _ => env (receipt 1 half) 0 false)

/-- A round of the watcher at a given time. -/
def watchAt (now : ℚ) (delivered : Bool) : Call × (Nat → (o : TouchOp) → o.Env) :=
  (.watch 0, fun _ => env (receipt 1 half) now delivered)

/-- An undo; the provider applies it after the runtime write, the third step. -/
def undo (revision : Nat) (m m' : Affine) : Call × (Nat → (o : TouchOp) → o.Env) :=
  (.undo, fun n => if n < 3 then env (receipt revision m) 0 true
    else env (receipt (revision + 1) m') 0 true)

end Sample

/-! ## The watcher of a preview -/

/-- The watcher of an active preview runs. -/
def HasWatcher (s : Backend) : Prop :=
  ∀ preview, s.preview = some preview →
    ∃ watcher, s.watchers[preview.id]? = some watcher ∧ watcher.alive = true

/-- The watcher of an active preview runs, watches for its token, and is not
    stopped. -/
def Guarded (s : Backend) : Prop :=
  ∀ preview, s.preview = some preview →
    s.watchers[preview.id]? = some ⟨preview.token, false, true⟩

theorem Guarded.of_none {s : Backend} (h : s.preview = none) : Guarded s := by
  intro preview hslot
  rw [h] at hslot
  exact nomatch hslot

theorem Guarded.write {s : Backend} (h : Guarded s) (text : List Char) (file : AffineFile) :
    Guarded (s.write text file) := by
  intro preview hslot
  rw [Backend.write_preview] at hslot
  rw [Backend.write_watchers]
  exact h preview hslot

/-- The end of another watcher. -/
theorem Guarded.endWatcher {s : Backend} (h : Guarded s) {id : Nat}
    (hid : ∀ preview, s.preview = some preview → preview.id ≠ id) : Guarded (s.endWatcher id) := by
  intro preview hslot
  have hne := hid preview hslot
  rw [← h preview hslot]
  exact List.getElem?_modify_ne _ _ (Ne.symm hne)

/-- What leaves an active preview without its watcher: the thread cannot be
    started, or the rollback that the watcher itself makes fails. -/
def LosesWatcher (C : Config) (e : TouchEvent) : Prop :=
  (∃ id, ⟨.startWatcher id, false⟩ ∈ e.log) ∨
  (∃ preview, e.before.preview = some preview ∧ e.call = .watch preview.id ∧
    RollbackFails C preview e.log)

theorem Guarded.started {C : Config} {draft : Draft} {s s' : Backend} {log : TouchLog}
    (h : Started C draft true s log s') : Guarded s' := by
  obtain ⟨-, -, -, -, rfl⟩ := h
  intro preview hslot
  simp only [Backend.setWatcher, Backend.install, Backend.write_watchers,
    Option.some.injEq] at hslot ⊢
  subst hslot
  rw [List.getElem?_modify_eq, List.getElem?_concat_length]
  rfl

/-- A rollback that is not the watcher's own keeps the watcher. -/
theorem Guarded.restored {C : Config} {preview : Preview} {s s' : Backend} {log : TouchLog}
    (h : Guarded s) (hslot : s.preview = some preview) (hr : Restored C preview s log s') :
    Guarded s' := by
  cases hr with
  | failed _ => exact h
  | spoiled _ _ => exact h.write _ _
  | cleared => exact .of_none (clear_preview_eq_none hslot _ _)

/-- A rollback that does not fail empties the slot. -/
theorem Restored.preview_eq_none {C : Config} {preview : Preview} {s s' : Backend} {log : TouchLog}
    (hr : Restored C preview s log s') (hslot : s.preview = some preview)
    (hfails : ¬RollbackFails C preview log) : s'.preview = none := by
  cases hr with
  | failed h => exact absurd h hfails
  | spoiled h _ => exact absurd h hfails
  | cleared => exact clear_preview_eq_none hslot _ _

/-- The preview in the slot after a rollback is the one before it. -/
theorem Restored.preview_eq {C : Config} {preview : Preview} {s s' : Backend} {log : TouchLog}
    (hr : Restored C preview s log s') (hslot : s.preview = some preview) :
    s'.preview = some preview ∨ s'.preview = none := by
  cases hr with
  | failed _ => exact .inl hslot
  | spoiled _ _ => exact .inl ((Backend.write_preview ..).trans hslot)
  | cleared => exact .inr (clear_preview_eq_none hslot _ _)

theorem Guarded.watched {C : Config} {id : Nat} {s s' : Backend} {log : TouchLog} (h : Guarded s)
    (hw : Watches C id s log s')
    (hown : ∀ preview, s.preview = some preview → id = preview.id → ¬RollbackFails C preview log) :
    Guarded s' := by
  cases hw with
  | waits => exact h
  | ends watcher hwatcher hend =>
    refine h.endWatcher fun preview hslot hid => ?_
    -- the watcher of the active preview has no reason to end
    have hguard := h preview hslot
    rw [hid, hwatcher, Option.some.injEq] at hguard
    subst hguard
    rcases hend with hstop | hnone | ⟨preview', hslot', htoken⟩
    · exact nomatch hstop
    · rw [hnone] at hslot
      exact nomatch hslot
    · rw [hslot, Option.some.injEq] at hslot'
      exact htoken (hslot' ▸ rfl)
  | rollsBack preview mid hslot hr =>
    by_cases hid : id = preview.id
    · refine .of_none ?_
      exact hr.preview_eq_none hslot (hown preview hslot hid)
    · refine (h.restored hslot hr).endWatcher fun preview' hslot' => ?_
      rcases hr.preview_eq hslot with hsome | hnone
      · rw [hsome, Option.some.injEq] at hslot'
        exact hslot' ▸ Ne.symm hid
      · rw [hnone] at hslot'
        exact nomatch hslot'

theorem Guarded.change {C : Config} {call : Call} {s s' : Backend} {log : TouchLog} (h : Guarded s)
    (hc : Change C s log call s') (hspawn : ∀ id, ⟨.startWatcher id, false⟩ ∉ log)
    (hown : ∀ preview, s.preview = some preview → call = .watch preview.id →
      ¬RollbackFails C preview log) : Guarded s' := by
  cases hc with
  | kept => exact h
  | runtime _ text hnone => exact h.write _ _
  | started request draft started hs =>
    cases started with
    | false => exact absurd hs.spawn (hspawn _)
    | true => exact .started hs
  | confirmed token preview hc =>
    rw [hc.after]
    exact .of_none (clear_preview_eq_none hc.active _ _)
  | restored _ preview hslot hr => exact h.restored hslot hr
  | undone revision m previous hu =>
    rw [hu.after]
    exact (h.write _ _).write _ _
  | watched id hw =>
    exact h.watched hw fun preview hslot hid => hown preview hslot (hid ▸ rfl)

/-- In a run in which every watcher can be started and no watcher's own rollback
    fails, an active preview always has a running watcher. -/
theorem preview_has_watcher (C : Config) {s s' : Backend} {es : List TouchEvent} (hs : s.Fresh)
    (h : TouchRun C s es s') (hkeep : ∀ e ∈ es, ¬LosesWatcher C e) :
    HasWatcher s' ∧ ∀ e ∈ es, HasWatcher e.before ∧ HasWatcher e.after := by
  have hguarded : ∀ s, Guarded s → HasWatcher s := fun s hg preview hslot =>
    ⟨_, hg preview hslot, rfl⟩
  have hstep : ∀ e : TouchEvent, e.Happens C → ¬LosesWatcher C e → Guarded e.before →
      Guarded e.after := fun e he hlose hb =>
    hb.change he.change (fun id hid => hlose (.inl ⟨id, hid⟩)) fun preview hslot hcall hfails =>
      hlose (.inr ⟨preview, hslot, hcall, hfails⟩)
  obtain ⟨hend, hall⟩ := h.invariant hstep (.of_none hs.1) hkeep
  exact ⟨hguarded _ hend, fun e he => ⟨hguarded _ (hall e he).1, hguarded _ (hall e he).2⟩⟩

/-- An operation that writes the effective document. -/
def rewrites (x : (o : TouchOp) × o.Ret) : Bool :=
  match x.1 with
  | .write .effective _ => true
  | _ => false

/-- A rollback that fails has tried its runtime write. -/
theorem RollbackFails.rewrites {C : Config} {preview : Preview} {log : TouchLog}
    (h : RollbackFails C preview log)
    (hshort : (preview.savedText C).length ≤ maxConfigBytes) : log.any rewrites = true := by
  obtain ⟨pre, tried, post, e, rfl, hpath⟩ := h
  have hwrite : Path (atomicWriteRuntime (preview.savedText C) >>= fun _ => do
      reloadRuntime C
      if ← affineApplied C preview.savedRevision preview.savedMatrix then return ()
      else fail (.provider "touch affine runtime readback did not match the request"))
      tried (.error e) := hpath
  rw [atomicWriteRuntime, if_neg (Nat.not_lt.mpr hshort)] at hwrite
  cases hwrite
  rw [List.any_append, List.any_append, List.any_cons]
  simp only [Ch347.rewrites, Bool.true_or, Bool.or_true]

/-- A watcher that is alone with an expired preview and cannot reach the provider
    ends and leaves the preview active. -/
theorem watcher_lost : ∃ s es s', s.Fresh ∧ TouchRun Sample.config s es s' ∧ ¬HasWatcher s' := by
  have htest : (replay Sample.config [Sample.preview, Sample.watchAt 2 false] Sample.initial).any
      (fun p => p.2.preview.any fun preview =>
        (p.2.watchers[preview.id]?).any fun watcher => !watcher.alive) = true := by decide +kernel
  obtain ⟨⟨es, s'⟩, hreplay, htest⟩ := (Option.any_eq_true _ _).mp htest
  obtain ⟨preview, hslot, htest⟩ := (Option.any_eq_true _ _).mp htest
  obtain ⟨watcher, hwatcher, hdead⟩ := (Option.any_eq_true _ _).mp htest
  refine ⟨Sample.initial, es, s', Sample.initial_fresh,
    touchRun_of_replay (by simp [Sample.preview, Sample.watchAt]) hreplay, fun h => ?_⟩
  obtain ⟨watcher', hwatcher', halive⟩ := h preview hslot
  rw [hwatcher, Option.some.injEq] at hwatcher'
  rw [hwatcher', halive] at hdead
  exact nomatch hdead

/-- A round of the watcher before the deadline keeps the preview watched. -/
theorem preview_has_watcher_waiting : ∃ es s', TouchRun Sample.config Sample.initial es s' ∧
    (∀ e ∈ es, ¬LosesWatcher Sample.config e) ∧ s'.preview.isSome = true ∧ HasWatcher s' := by
  have htest : (replay Sample.config [Sample.preview, Sample.watchAt 0 true] Sample.initial).any
      (fun p => p.2.preview.isSome && p.1.all fun e =>
        !e.log.any (fun x => match x with | ⟨.startWatcher _, started⟩ => !started | _ => false) &&
        e.before.preview.all fun preview =>
          (preview.savedText Sample.config).length ≤ maxConfigBytes && !e.log.any rewrites) =
            true := by
    decide +kernel
  obtain ⟨⟨es, s'⟩, hreplay, htest⟩ := (Option.any_eq_true _ _).mp htest
  rw [Bool.and_eq_true, List.all_eq_true] at htest
  have hrun := touchRun_of_replay (by simp [Sample.preview, Sample.watchAt]) hreplay
  have hkeep : ∀ e ∈ es, ¬LosesWatcher Sample.config e := by
    rintro e he (⟨id, hmem⟩ | ⟨preview, hslot, -, hfails⟩)
    · have := htest.2 e he
      simp only [Bool.and_eq_true, Bool.not_eq_true', List.any_eq_false] at this
      exact this.1 _ hmem rfl
    · have := htest.2 e he
      simp only [hslot, Option.all_some, Bool.and_eq_true, decide_eq_true_eq,
        Bool.not_eq_true'] at this
      rw [hfails.rewrites this.2.1] at this
      exact nomatch this.2.2
  exact ⟨es, s', hrun, hkeep, htest.1, (preview_has_watcher Sample.config Sample.initial_fresh hrun
    hkeep).1⟩

/-! ## What a confirm leaves behind -/

/-- The effective document is the one of the active preview. -/
def Effectual (C : Config) (s : Backend) : Prop :=
  ∀ preview, s.preview = some preview → s.effective = some (preview.text C)

/-- A rollback of the active preview fails after its runtime write. -/
def Spoils (C : Config) (e : TouchEvent) : Prop :=
  ∃ preview, e.before.preview = some preview ∧ RollbackSpoils C preview e.log

theorem Effectual.of_none {C : Config} {s : Backend} (h : s.preview = none) : Effectual C s := by
  intro preview hslot
  rw [h] at hslot
  exact nomatch hslot

theorem Effectual.restored {C : Config} {preview : Preview} {s s' : Backend} {log : TouchLog}
    (h : Effectual C s) (hslot : s.preview = some preview) (hr : Restored C preview s log s')
    (hspoils : ¬RollbackSpoils C preview log) : Effectual C s' := by
  cases hr with
  | failed _ => exact h
  | spoiled _ hspoiled => exact absurd hspoiled hspoils
  | cleared => exact .of_none (clear_preview_eq_none hslot _ _)

theorem Effectual.change {C : Config} {call : Call} {s s' : Backend} {log : TouchLog}
    (h : Effectual C s) (hc : Change C s log call s')
    (hspoils : ∀ preview, s.preview = some preview → ¬RollbackSpoils C preview log) :
    Effectual C s' := by
  cases hc with
  | kept => exact h
  | runtime _ text hnone => exact .of_none ((Backend.write_preview ..).trans hnone)
  | started request draft started hs =>
    rw [hs.after]
    intro preview hslot
    simp only [Backend.setWatcher, Backend.install, Option.some.injEq] at hslot
    subst hslot
    rfl
  | confirmed token preview hc =>
    rw [hc.after]
    exact .of_none (clear_preview_eq_none hc.active _ _)
  | restored _ preview hslot hr => exact h.restored hslot hr (hspoils preview hslot)
  | undone revision m previous hu =>
    rw [hu.after]
    exact .of_none (by rw [Backend.write_preview, Backend.write_preview, hu.empty])
  | watched id hw =>
    cases hw with
    | waits => exact h
    | ends _ _ _ => exact h
    | rollsBack preview mid hslot hr =>
      have hmid : Effectual C mid := h.restored hslot hr (hspoils preview hslot)
      exact hmid

/-- A confirm that returns has persisted the preview of its token. -/
theorem TouchEvent.Happens.confirmed {C : Config} {e : TouchEvent} {token : Value}
    (h : e.Happens C) (hcall : e.call = .confirm token) (hresult : e.result = .ok ()) :
    ∃ preview, Confirmed C token preview e.before e.log e.after := by
  obtain ⟨-, ω, ω', hrun, hlog⟩ := h
  have hspec : (program C (.confirm token)).wp touchMachine (fun x log s' => x = .ok () →
      ∃ preview, Confirmed C token preview e.before log s') e.before := by
    refine wp_bind (touchCalibrationConfirm_spec C token e.before) ?_ fun e _ _ _ h => nomatch h
    intro current log s' hpost
    refine wp_pure fun _ => ?_
    rw [List.append_nil]
    rcases hpost with h | ⟨⟨e, he⟩, -⟩
    · exact h
    · exact nomatch he
  rw [hcall] at hrun hlog
  have := wp_of_run hspec hrun
  rw [hlog] at this
  exact this hresult

/-- The persisted document, the effective document and a receipt of the active
    generation that the call has read all carry one revision and one matrix. -/
def InEffect (C : Config) (e : TouchEvent) : Prop :=
  ∃ revision m previous,
    e.after.persistent = some (affineStateText C.floats revision m previous) ∧
    e.after.effective = some (affineEffectiveText C.floats revision m) ∧
    Verified C revision m e.log

/-- In a run in which no rollback of an active preview fails after its runtime
    write, what a confirm that returns has persisted is in effect. -/
theorem confirmed_is_in_effect (C : Config) {s s' : Backend} {es : List TouchEvent} (hs : s.Fresh)
    (h : TouchRun C s es s') (hclean : ∀ e ∈ es, ¬Spoils C e) :
    ∀ e ∈ es, ∀ token, e.call = .confirm token → e.result = .ok () → InEffect C e := by
  have hstep : ∀ e : TouchEvent, e.Happens C → ¬Spoils C e → Effectual C e.before →
      Effectual C e.after := fun e he hspoils hb =>
    hb.change he.change fun preview hslot hr => hspoils ⟨preview, hslot, hr⟩
  obtain ⟨-, hall⟩ := h.invariant hstep (.of_none hs.1) hclean
  intro e he token hcall hresult
  obtain ⟨preview, hactive, -, ⟨pre, post, hlog, hpermitted⟩, hafter⟩ :=
    (h.happens e he).confirmed hcall hresult
  refine ⟨preview.revision, preview.matrix, some preview.savedMatrix, ?_, ?_, ?_⟩
  · rw [hafter]
    rfl
  · rw [hafter]
    exact (hall e he).1 preview hactive
  · obtain ⟨text, owner, generation, pid, doc, happ, hown, hrest⟩ := hpermitted.receipt
    rw [hlog]
    exact ⟨text, owner, generation, pid, doc, List.mem_append_left _ happ,
      List.mem_append_left _ hown, hrest⟩

/-- The revision is on the second line of a persisted document and on the first
    of an effective one. -/
theorem InEffect.revision_line {C : Config} {e : TouchEvent} (h : InEffect C e) :
    (e.after.persistent.bind fun text => (splitlines text)[1]?) =
      e.after.effective.bind fun text => (splitlines text)[0]? := by
  obtain ⟨revision, m, previous, hpersistent, heffective, -⟩ := h
  rw [hpersistent, heffective, Option.bind_some, Option.bind_some]
  exact splitlines_stateText_effectiveText C.floats revision m previous

/-- A confirm that has returned. -/
def returnsConfirm (e : TouchEvent) : Bool :=
  match e.call, e.result with
  | .confirm _, .ok _ => true
  | _, _ => false

theorem of_returnsConfirm {e : TouchEvent} (h : returnsConfirm e = true) :
    ∃ token, e.call = .confirm token ∧ e.result = .ok () := by
  unfold returnsConfirm at h
  split at h
  · next token _ hcall hresult => exact ⟨token, hcall, hresult⟩
  · exact nomatch h

/-- A cancel that rewrites the effective document and does not reach the provider
    leaves the preview to be confirmed: the revision it persists is not in effect. -/
theorem confirmed_not_in_effect : ∃ s es s', s.Fresh ∧ TouchRun Sample.config s es s' ∧
    ∃ e ∈ es, ∃ token, e.call = .confirm token ∧ e.result = .ok () ∧ ¬InEffect Sample.config e := by
  have htest : (replay Sample.config [Sample.preview, Sample.cancelFails, Sample.confirm]
      Sample.initial).any (fun p => p.1.any fun e => returnsConfirm e &&
        (e.after.persistent.bind fun text => (splitlines text)[1]?) !=
          e.after.effective.bind fun text => (splitlines text)[0]?) = true := by decide +kernel
  obtain ⟨⟨es, s'⟩, hreplay, htest⟩ := (Option.any_eq_true _ _).mp htest
  obtain ⟨e, he, htest⟩ := List.any_eq_true.mp htest
  rw [Bool.and_eq_true, bne_iff_ne] at htest
  obtain ⟨token, hcall, hresult⟩ := of_returnsConfirm htest.1
  exact ⟨Sample.initial, es, s', Sample.initial_fresh,
    touchRun_of_replay (by simp [Sample.preview, Sample.cancelFails, Sample.confirm]) hreplay,
    e, he, token, hcall, hresult, fun h => htest.2 h.revision_line⟩

/-- A preview that is confirmed at once. -/
theorem confirmed_is_in_effect_at_once : ∃ es s', TouchRun Sample.config Sample.initial es s' ∧
    (∀ e ∈ es, ¬Spoils Sample.config e) ∧ ∃ e ∈ es, InEffect Sample.config e := by
  have htest : (replay Sample.config [Sample.preview, Sample.confirm] Sample.initial).any
      (fun p => p.1.any returnsConfirm && p.1.all fun e =>
        e.before.preview.isNone || !e.log.any rewrites) = true := by decide +kernel
  obtain ⟨⟨es, s'⟩, hreplay, htest⟩ := (Option.any_eq_true _ _).mp htest
  rw [Bool.and_eq_true, List.any_eq_true, List.all_eq_true] at htest
  obtain ⟨⟨e, he, hreturns⟩, hquiet⟩ := htest
  have hrun := touchRun_of_replay (by simp [Sample.preview, Sample.confirm]) hreplay
  have hclean : ∀ e ∈ es, ¬Spoils Sample.config e := by
    rintro e he ⟨preview, hslot, pre, tried, post, _, hlog, -, hmem⟩
    have hrewrites : e.log.any rewrites = true := by
      rw [List.any_eq_true, hlog]
      exact ⟨_, List.mem_append_left _ (List.mem_append_right _ hmem), rfl⟩
    have := hquiet e he
    rw [hslot, hrewrites] at this
    exact nomatch this
  obtain ⟨token, hcall, hresult⟩ := of_returnsConfirm hreturns
  exact ⟨es, s', hrun, hclean, e, he, confirmed_is_in_effect Sample.config Sample.initial_fresh hrun
    hclean e he token hcall hresult⟩

/-! ## Who may persist -/

/-- The call has confirmed the active preview of its token. -/
def ConfirmsPreview (C : Config) (e : TouchEvent) : Prop :=
  ∃ token preview, e.call = .confirm token ∧ Confirmed C token preview e.before e.log e.after

/-- The call has swapped the persisted matrix with its undo value. -/
def Undoes (C : Config) (e : TouchEvent) (revision : Nat) (m previous : Affine) : Prop :=
  e.call = .undo ∧ Undone C revision m previous e.before e.after

/-- The call has taken the preview of the token from the slot. -/
def consumes (token : String) (e : TouchEvent) : Bool :=
  e.before.preview.any (·.token == token) && e.after.preview.isNone

/-- The call has put a preview with the token in the empty slot. -/
def issues (token : String) (e : TouchEvent) : Bool :=
  e.before.preview.isNone && e.after.preview.any (·.token == token)

/-- A rollback does not touch the persisted document. -/
theorem Restored.persistent_eq {C : Config} {preview : Preview} {s s' : Backend} {log : TouchLog}
    (hr : Restored C preview s log s') : s'.persistent = s.persistent := by
  cases hr with
  | failed _ => rfl
  | spoiled _ _ => rfl
  | cleared => rfl

theorem Change.persistent {C : Config} {call : Call} {s s' : Backend} {log : TouchLog}
    (h : Change C s log call s') : s'.persistent = s.persistent ∨
      (∃ token preview, call = .confirm token ∧ Confirmed C token preview s log s') ∨
      (call = .undo ∧ ∃ revision m previous, Undone C revision m previous s s') := by
  cases h with
  | kept => exact .inl rfl
  | runtime _ text _ => exact .inl rfl
  | started request draft started hs =>
    rw [hs.after]
    exact .inl rfl
  | confirmed token preview hc => exact .inr (.inl ⟨token, preview, rfl, hc⟩)
  | restored _ preview _ hr => exact .inl hr.persistent_eq
  | undone revision m previous hu => exact .inr (.inr ⟨rfl, revision, m, previous, hu⟩)
  | watched id hw =>
    cases hw with
    | waits => exact .inl rfl
    | ends _ _ _ => exact .inl rfl
    | rollsBack preview mid _ hr => exact .inl hr.persistent_eq

/-- How a call can change the slot: not at all, by a preview in the empty slot, or
    by a confirm or a rollback that empties it. -/
theorem Change.slot {C : Config} {call : Call} {s s' : Backend} {log : TouchLog}
    (h : Change C s log call s') : s'.preview = s.preview ∨
      (∃ request draft started, call = .preview request ∧ Started C draft started s log s') ∨
      (∃ preview, s.preview = some preview ∧ s'.preview = none ∧
        ((∃ token, call = .confirm token ∧ Confirmed C token preview s log s') ∨
          s'.effective = some (preview.savedText C))) := by
  -- A rollback leaves the preview in its slot, or clears it and restores the saved matrix.
  have hrestored : ∀ {preview : Preview} {mid : Backend}, s.preview = some preview →
      Restored C preview s log mid → mid.preview = s.preview ∨
        (mid.preview = none ∧ mid.effective = some (preview.savedText C)) := by
    intro preview mid hslot hr
    cases hr with
    | failed _ => exact .inl rfl
    | spoiled _ _ => exact .inl (Backend.write_preview ..)
    | cleared => exact .inr ⟨clear_preview_eq_none hslot _ _, rfl⟩
  cases h with
  | kept => exact .inl rfl
  | runtime _ text _ => exact .inl (Backend.write_preview ..)
  | started request draft started hs => exact .inr (.inl ⟨request, draft, started, rfl, hs⟩)
  | confirmed token preview hc =>
    refine .inr (.inr ⟨preview, hc.active, ?_, .inl ⟨token, rfl, hc⟩⟩)
    rw [hc.after]
    exact clear_preview_eq_none hc.active _ _
  | restored _ preview hslot hr =>
    rcases hrestored hslot hr with h | ⟨hnone, htext⟩
    · exact .inl h
    · exact .inr (.inr ⟨preview, hslot, hnone, .inr htext⟩)
  | undone revision m previous hu =>
    rw [hu.after]
    exact .inl ((Backend.write_preview ..).trans (Backend.write_preview ..))
  | watched id hw =>
    cases hw with
    | waits => exact .inl rfl
    | ends _ _ _ => exact .inl rfl
    | rollsBack preview mid hslot hr =>
      rcases hrestored hslot hr with h | ⟨hnone, htext⟩
      · exact .inl h
      · exact .inr (.inr ⟨preview, hslot, hnone, .inr htext⟩)

/-- Whether the slot holds a preview with the token. -/
private def held (token : String) (s : Backend) : Nat := (s.preview.any (·.token == token)).toNat

/-- One call: what it consumes was in the slot, what it leaves there it issued or
    found there. -/
private theorem consumes_step {C : Config} {e : TouchEvent} (h : e.Happens C) (token : String) :
    (consumes token e).toNat + held token e.after ≤
      (issues token e).toNat + held token e.before := by
  have hslot : e.after.preview = e.before.preview ∨ e.before.preview = none ∨
      e.after.preview = none := by
    rcases h.change.slot with h | ⟨_, _, _, _, h⟩ | ⟨_, _, h, _⟩
    · exact .inl h
    · exact .inr (.inl h.empty)
    · exact .inr (.inr h)
  rw [consumes, issues, held, held]
  rcases hslot with heq | hnone | hnone
  · rw [heq]
    cases e.before.preview with
    | none => exact le_refl _
    | some preview => simp only [Option.isNone_some, Bool.and_false, Bool.false_and, le_refl]
  · rw [hnone]
    simp only [Option.any_none, Bool.false_and, Option.isNone_none, Bool.true_and, Bool.toNat_false,
      add_zero, zero_add, le_refl]
  · rw [hnone]
    simp only [Option.isNone_none, Bool.and_true, Option.any_none, Bool.and_false, Bool.toNat_false,
      add_zero, zero_add, le_refl]

/-- A token is consumed at most as often as it is issued. -/
private theorem consumes_le_issues {C : Config} {s s' : Backend} {es : List TouchEvent}
    (h : TouchRun C s es s') (token : String) :
    es.countP (consumes token) + held token s' ≤ es.countP (issues token) + held token s := by
  induction es generalizing s with
  | nil =>
    obtain rfl : s = s' := h
    exact le_refl _
  | cons e es ih =>
    obtain ⟨rfl, hhappens, hrest⟩ := h
    have hstep := consumes_step hhappens token
    have hrun := ih hrest
    rw [List.countP_cons, List.countP_cons]
    cases hc : consumes token e <;> cases hi : issues token e <;>
      simp only [hc, hi, Bool.toNat_true, Bool.toNat_false, if_true, Bool.false_eq_true, if_false]
        at hstep ⊢ <;> omega

/-- The preview that a call puts in the slot is the draft it has installed. -/
private theorem Started.preview_eq {C : Config} {draft : Draft} {started : Bool} {s s' : Backend}
    {log : TouchLog} (h : Started C draft started s log s') :
    s'.preview = some { draft with id := s.watchers.length } := by
  rw [h.after]
  simp only [Backend.setWatcher, Backend.install, Backend.write_watchers]

/-- A preview in the slot has been put there by an earlier call of the run. -/
private theorem started_before {C : Config} {s s' : Backend} {es : List TouchEvent}
    (h : TouchRun C s es s') {preview : Preview} (hslot : s'.preview = some preview) :
    s.preview = some preview ∨ ∃ e ∈ es, ∃ request started, e.call = .preview request ∧
      Started C preview.toDraft started e.before e.log e.after := by
  induction es generalizing s with
  | nil =>
    obtain rfl : s = s' := h
    exact .inl hslot
  | cons e es ih =>
    obtain ⟨rfl, hhappens, hrest⟩ := h
    rcases ih hrest with hafter | ⟨e', he', hstarted⟩
    · rcases hhappens.change.slot with h | ⟨request, draft, started, hcall, h⟩ | ⟨_, _, hnone, _⟩
      · exact .inl (h ▸ hafter)
      · rw [h.preview_eq, Option.some.injEq] at hafter
        subst hafter
        exact .inr ⟨e, List.mem_cons_self .., request, started, hcall, h⟩
      · rw [hnone] at hafter
        exact nomatch hafter
    · exact .inr ⟨e', List.mem_cons_of_mem _ he', hstarted⟩

private theorem TouchRun.split {C : Config} {s s' : Backend} {pre post : List TouchEvent}
    {e : TouchEvent} (h : TouchRun C s (pre ++ e :: post) s') : TouchRun C s pre e.before := by
  induction pre generalizing s with
  | nil => exact h.1.symm
  | cons e' pre ih => exact ⟨h.1, h.2.1, ih h.2.2⟩

/-- Undoing what an undo has written gives the two matrices back. -/
private theorem Undone.again {C : Config} {s₁ s₁' s₂ s₂' : Backend} {revision revision' : Nat}
    {m previous m' previous' : Affine} (h : Undone C revision m previous s₁ s₁')
    (h' : Undone C revision' m' previous' s₂ s₂') (hsame : s₂.persistent = s₁'.persistent) :
    s₂'.persistent = some (affineStateText C.floats (revision + 2) m (some previous)) := by
  obtain ⟨text, htext, hparse⟩ := h'.read
  rw [hsame, h.after] at htext
  change some (affineStateText C.floats (revision + 1) previous (some m)) = some text at htext
  rw [Option.some.injEq] at htext
  subst htext
  obtain ⟨hrevision, hm, p', hp', hprevious⟩ :=
    parseAffineDocument_stateText (Nat.succ_le_of_lt h.bound) hparse
  cases hp'
  obtain rfl : revision' = revision + 1 := hrevision
  rw [h'.after]
  change some (affineStateText C.floats (revision + 2) previous' (some m')) = _
  rw [affineStateText_congr hprevious hm]

/-- What holds of the calls of a run. -/
structure Transactional (C : Config) (es : List TouchEvent) : Prop where
  /-- The persisted document changes only by a confirm of the active preview, before
      its deadline, under its basis and with its receipt, or by an undo. -/
  persisted : ∀ e ∈ es, e.after.persistent ≠ e.before.persistent →
    ConfirmsPreview C e ∨ ∃ revision m previous, Undoes C e revision m previous
  /-- An active preview was started by an earlier call, from an empty slot, with the
      effective document of that moment as its saved value. -/
  saved : ∀ pre e post preview, es = pre ++ e :: post → e.before.preview = some preview →
    ∃ e' ∈ pre, ∃ request started, e'.call = .preview request ∧
      Started C preview.toDraft started e'.before e'.log e'.after
  /-- Two undos in a row give both matrices back. -/
  redo : ∀ e₁ ∈ es, ∀ e₂ ∈ es, ∀ revision m previous revision' m' previous',
    Undoes C e₁ revision m previous → Undoes C e₂ revision' m' previous' →
    e₂.before.persistent = e₁.after.persistent →
    e₂.after.persistent = some (affineStateText C.floats (revision + 2) m (some previous))
  /-- A preview leaves the slot confirmed or rolled back. -/
  consumed : ∀ e ∈ es, ∀ preview, e.before.preview = some preview → e.after.preview = none →
    ConfirmsPreview C e ∨ e.after.effective = some (preview.savedText C)
  /-- A token leaves the slot at most as often as it was issued. -/
  single_use : ∀ token, es.countP (consumes token) ≤ es.countP (issues token)

/-- Touch calibration is transactional in every run, whatever fails. -/
theorem calibration_transactional (C : Config) {s s' : Backend} {es : List TouchEvent}
    (hs : s.Fresh) (h : TouchRun C s es s') : Transactional C es := by
  refine ⟨fun e he hne => ?_, fun pre e post preview hes hslot => ?_,
    fun e₁ _ e₂ _ revision m previous revision' m' previous' h₁ h₂ hsame => h₁.2.again h₂.2 hsame,
    fun e he preview hslot hnone => ?_, fun token => ?_⟩
  · rcases (h.happens e he).change.persistent with heq | hconfirm | ⟨hcall, r, m, p, hundone⟩
    · exact absurd heq hne
    · exact .inl hconfirm
    · exact .inr ⟨r, m, p, hcall, hundone⟩
  · subst hes
    rcases started_before h.split hslot with hstart | hstarted
    · rw [hs.1] at hstart
      exact nomatch hstart
    · exact hstarted
  · rcases (h.happens e he).change.slot with heq | ⟨_, _, _, _, hstarted⟩ | ⟨preview',
      hslot', _, hend⟩
    · rw [heq, hslot] at hnone
      exact nomatch hnone
    · rw [hstarted.empty] at hslot
      exact nomatch hslot
    · rw [hslot, Option.some.injEq] at hslot'
      subst hslot'
      rcases hend with ⟨token, hcall, hconfirmed⟩ | htext
      · exact .inl ⟨token, preview, hcall, hconfirmed⟩
      · exact .inr htext
  · have hcount := consumes_le_issues h token
    have hheld : held token s = 0 := by
      rw [held, hs.1]
      rfl
    omega

/-- A preview that is confirmed, undone, and undone again. -/
theorem calibration_transactional_redo : ∃ es s', TouchRun Sample.config Sample.initial es s' ∧
    s'.persistent = some (affineStateText Sample.floats 3 Sample.half (some identityAffine)) ∧
    Transactional Sample.config es := by
  have htest : (replay Sample.config [Sample.preview, Sample.confirm,
      Sample.undo 1 Sample.half identityAffine, Sample.undo 2 identityAffine Sample.half]
      Sample.initial).any (fun p => p.2.persistent ==
        some (affineStateText Sample.floats 3 Sample.half (some identityAffine))) = true := by
    decide +kernel
  obtain ⟨⟨es, s'⟩, hreplay, htest⟩ := (Option.any_eq_true _ _).mp htest
  have hrun := touchRun_of_replay (by simp [Sample.preview, Sample.confirm, Sample.undo]) hreplay
  exact ⟨es, s', hrun, beq_iff_eq.mp htest,
    calibration_transactional Sample.config Sample.initial_fresh hrun⟩

end MsysHal.Ch347

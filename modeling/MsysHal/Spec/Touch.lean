import MsysHal.ForStd.Hoare
import MsysHal.Python.Touch
import MsysHal.Spec.Affine

/-!
# What a call does to the calibration

Every call of the CH347 backend leaves the documents and the preview slot as they
were, or makes one of a few changes: `Change` lists them, each with what the call
has seen when it makes it. `call_changes` says that there is no other, whatever
fails on the way.

## Key results

- `applyAffine_spec`, `restorePreviewLocked_spec`, `touchCalibrationConfirm_spec`: one
  specification a method
- `call_changes`: what a call can do
-/

namespace MsysHal.Ch347

open Python (Value)
open Interleave (Prog Path Issues Log wp_bind wp_mono wp_and wp_path wp_attempt_bind wp_ofExcept
  wp_issues wp_perform_bind wp_pure wp_raise)

/-- The operations a call has done, with their answers. -/
abbrev TouchLog := Log touchSig

/-! ## Methods that only read -/

/-- The operations that leave the state as it is. -/
def TouchOp.reads : TouchOp → Bool
  | .write _ _ | .install _ | .startWatcher _ | .clear _ | .endWatcher _ => false
  | _ => true

/-- The program only reads. -/
abbrev ReadOnly {α : Type} (p : TouchM α) : Prop := Issues (S := touchSig) (·.reads = true) p

theorem exec_reads {o : TouchOp} (h : o.reads = true) {input : (o : TouchOp) → o.Env}
    {s s' : Backend} {r : o.Ret} (he : touchMachine.exec o input s = some (r, s')) : s' = s := by
  change touchExec o (input o) s = some (r, s') at he
  generalize input o = answer at he
  cases o <;> simp only [TouchOp.reads, Bool.false_eq_true] at h
  case read file =>
    cases answer <;> simp only [touchExec, Option.some.injEq, Prod.mk.injEq] at he <;>
      exact he.2.symm
  case wake id =>
    simp only [touchExec] at he
    split at he
    · split at he
      · simp only [Option.some.injEq, Prod.mk.injEq] at he
        exact he.2.symm
      · exact nomatch he
    · exact nomatch he
  all_goals
    simp only [touchExec, Option.some.injEq, Prod.mk.injEq] at he
    exact he.2.symm

/-- A program that only reads leaves the state as it was. -/
theorem ReadOnly.wp {α : Type} {p : TouchM α} (h : ReadOnly p) (s : Backend) :
    p.wp touchMachine (fun _ _ s' => s' = s) s :=
  wp_issues (R := fun s s' => s' = s) (fun _ => rfl) (fun _ _ _ h h' => h'.trans h)
    (fun _ _ _ _ _ ho he => exec_reads ho he) h s

section ReadOnly

variable (C : Config)

theorem op_readOnly {o : TouchOp} (h : o.reads = true) : ReadOnly (op o) := .perform h

theorem loadAffineFile_readOnly (file : AffineFile) : ReadOnly (loadAffineFile C file) := by
  refine (op_readOnly rfl).bind fun answer => (Issues.ofExcept answer).bind fun text => ?_
  cases text with
  | none => exact .pure _
  | some text => exact (Issues.ofExcept _).bind fun _ => .pure _

theorem activeProvider_readOnly : ReadOnly (activeProvider C) := by
  refine (op_readOnly rfl).bind fun owner => ?_
  split
  · exact .raise _
  · exact .raise _
  · split
    · exact .raise _
    · refine (Issues.ofExcept _).bind fun _ => (Issues.ofExcept _).bind fun _ =>
        (op_readOnly rfl).bind fun alive => ?_
      split
      · exact .pure _
      · exact .raise _

theorem loadAppliedAffine_readOnly : ReadOnly (loadAppliedAffine C) := by
  refine (op_readOnly rfl).bind fun answer => (Issues.ofExcept _).bind fun text => ?_
  split
  · exact .pure _
  · dsimp only
    split
    · exact .raise _
    · refine (activeProvider_readOnly C).bind fun _ => ?_
      split
      · exact .raise _
      · exact (Issues.ofExcept _).bind fun _ => .pure _

theorem affineApplied_readOnly (revision : Nat) (m : Affine) :
    ReadOnly (affineApplied C revision m) :=
  (loadAppliedAffine_readOnly C).bind fun _ => .pure _

theorem runtimeReceiptsMatch_readOnly : ReadOnly (runtimeReceiptsMatch C) := by
  refine (op_readOnly rfl).bind fun configured =>
    (loadAffineFile_readOnly C _).bind fun affine => ?_
  split
  · exact .pure _
  · refine (op_readOnly rfl).bind fun others => ?_
    split
    · exact .pure _
    · exact (loadAppliedAffine_readOnly C).bind fun _ => .pure _

theorem awaitReceipts_readOnly (details : List (String × Value)) (rounds : Nat) :
    ReadOnly (awaitReceipts C details rounds) := by
  induction rounds with
  | zero => exact .raise _
  | succ rounds ih =>
    refine (runtimeReceiptsMatch_readOnly C).bind fun done => ?_
    split
    · exact .pure _
    · exact ih

theorem reloadRuntime_readOnly : ReadOnly (reloadRuntime C) := by
  refine (activeProvider_readOnly C).bind fun _ => (op_readOnly rfl).bind fun delivered => ?_
  split
  · exact (op_readOnly rfl).bind fun _ => awaitReceipts_readOnly C _ _
  · exact .raise _

theorem basisSnapshot_readOnly : ReadOnly basisSnapshot := by
  refine (op_readOnly rfl).bind fun files => ?_
  split
  · exact .raise _
  · exact .pure _

theorem effectiveApplied_readOnly (effective : Option AffineDocument) :
    ReadOnly (effectiveApplied C effective) := by
  unfold effectiveApplied
  split
  · exact .pure _
  · refine (affineApplied_readOnly C _ _).attempt.bind fun result => ?_
    split
    · exact .pure _
    · exact .pure _
    · exact .raise _

theorem touchCalibrationGet_readOnly : ReadOnly (touchCalibrationGet C) :=
  (loadAffineFile_readOnly C _).bind fun _ => (loadAffineFile_readOnly C _).bind fun _ =>
    basisSnapshot_readOnly.bind fun _ => (effectiveApplied_readOnly C _).bind fun _ => .pure _

theorem requirePreview_readOnly (token : Value) : ReadOnly (requirePreview token) := by
  unfold requirePreview
  split
  · split
    · exact .raise _
    · refine (op_readOnly rfl).bind fun preview => ?_
      split
      · exact .raise _
      · split
        · exact .pure _
        · exact .raise _
  · exact .raise _

theorem previewRequest_readOnly (request : List (Value × Value)) :
    ReadOnly (previewRequest C request) := by
  unfold previewRequest
  split
  · split
    · exact .raise _
    · exact basisSnapshot_readOnly.bind fun _ => .pure _
  · split
    · refine (Issues.ofExcept _).bind fun _ => (Issues.ofExcept _).bind fun _ =>
        basisSnapshot_readOnly.bind fun _ => ?_
      split
      · exact .pure _
      · exact .raise _
    · exact .raise _
  · exact .raise _

theorem basisChanged_readOnly (preview : Preview) : ReadOnly (basisChanged preview) := by
  refine basisSnapshot_readOnly.attempt.bind fun result => ?_
  split
  · exact .pure _
  · exact .pure _
  · exact .raise _

theorem stage_readOnly (part : Stage) : ReadOnly (stage part) :=
  (op_readOnly rfl).bind fun _ => .ofExcept _

end ReadOnly

/-! ## Operations -/

@[simp] theorem Backend.write_preview (s : Backend) (text : List Char) (file : AffineFile) :
    (s.write text file).preview = s.preview := by
  cases file <;> rfl

@[simp] theorem Backend.write_watchers (s : Backend) (text : List Char) (file : AffineFile) :
    (s.write text file).watchers = s.watchers := by
  cases file <;> rfl

section Operations

variable {α : Type} {Q : Except PyError α → TouchLog → Backend → Prop} {s : Backend}

theorem wp_read {o : TouchOp} (h : o.reads = true) {f : o.Ret → TouchM α}
    (hf : ∀ r, (f r).wp touchMachine (fun x log => Q x (⟨o, r⟩ :: log)) s) :
    (op o >>= f).wp touchMachine Q s := by
  refine wp_perform_bind fun input r s' he => ?_
  obtain rfl := exec_reads h he
  exact hf r

theorem wp_slot {f : Option Preview → TouchM α}
    (hf : (f s.preview).wp touchMachine (fun x log => Q x (⟨.slot, s.preview⟩ :: log)) s) :
    (op .slot >>= f).wp touchMachine Q s := by
  refine wp_perform_bind fun input r s' he => ?_
  change some (s.preview, s) = some (r, s') at he
  cases he
  exact hf

theorem wp_clear {f : Unit → TouchM α} {id : Nat}
    (hf : (f ()).wp touchMachine (fun x log => Q x (⟨.clear id, ()⟩ :: log)) (s.clear id)) :
    (op (.clear id) >>= f).wp touchMachine Q s := by
  refine wp_perform_bind fun input r s' he => ?_
  change some ((), s.clear id) = some (r, s') at he
  cases he
  exact hf

theorem wp_install {f : Nat → TouchM α} {draft : Draft}
    (hf : (f s.watchers.length).wp touchMachine
      (fun x log => Q x (⟨.install draft, s.watchers.length⟩ :: log)) (s.install draft)) :
    (op (.install draft) >>= f).wp touchMachine Q s := by
  refine wp_perform_bind fun input r s' he => ?_
  change some (s.watchers.length, s.install draft) = some (r, s') at he
  cases he
  exact hf

theorem wp_startWatcher {f : Bool → TouchM α} {id : Nat}
    (hf : ∀ started, (f started).wp touchMachine
      (fun x log => Q x (⟨.startWatcher id, started⟩ :: log))
      (s.setWatcher id ({ · with alive := started }))) :
    (op (.startWatcher id) >>= f).wp touchMachine Q s := by
  refine wp_perform_bind fun input r s' he => ?_
  change some
    (input (.startWatcher id), s.setWatcher id ({ · with alive := input (.startWatcher id) }))
    = some (r, s') at he
  cases he
  exact hf _

/-- A read of a document fails, or gives the text of the file. -/
theorem exec_read {file : AffineFile} {input : (o : TouchOp) → o.Env} {s' : Backend}
    {r : Except PyError (Option (List Char))}
    (he : touchMachine.exec (.read file) input s = some (r, s')) :
    (∃ fault, r = .error (.hal fault) ∧ s' = s) ∨ (r = .ok (s.file file) ∧ s' = s) := by
  change touchExec (.read file) (input (.read file)) s = some (r, s') at he
  cases h : input (.read file) with
  | none =>
    rw [h, touchExec, Option.some.injEq, Prod.mk.injEq] at he
    exact .inr ⟨he.1.symm, he.2.symm⟩
  | some fault =>
    rw [h, touchExec, Option.some.injEq, Prod.mk.injEq] at he
    exact .inl ⟨fault, he.1.symm, he.2.symm⟩

/-- A write of a document fails and changes nothing, or replaces the text. -/
theorem exec_write {file : AffineFile} {text : List Char} {input : (o : TouchOp) → o.Env}
    {s' : Backend} {r : Except PyError Unit}
    (he : touchMachine.exec (.write file text) input s = some (r, s')) :
    (∃ e, r = .error e ∧ s' = s) ∨ (r = .ok () ∧ s' = s.write text file) := by
  change touchExec (.write file text) (input (.write file text)) s = some (r, s') at he
  cases h : input (.write file text) with
  | none =>
    rw [h, touchExec, Option.some.injEq, Prod.mk.injEq] at he
    exact .inr ⟨he.1.symm, he.2.symm⟩
  | some fault =>
    rw [h, touchExec, Option.some.injEq, Prod.mk.injEq] at he
    exact .inl ⟨fault, he.1.symm, he.2.symm⟩

end Operations

/-! ## Applying a matrix -/

section Apply

variable (C : Config)

/-- What a document that is loaded says of the file. -/
theorem loadAffineFile_spec (file : AffineFile) (s : Backend) :
    (loadAffineFile C file).wp touchMachine (fun x _ s' => s' = s ∧
      (∀ doc, x = .ok (some doc) → ∃ text, s.file file = some text ∧
        parseAffineDocument C.floats text file.state file.name = .ok doc)) s := by
  refine wp_and ((loadAffineFile_readOnly C file).wp s) ?_
  refine wp_perform_bind fun input answer s₁ he => ?_
  rcases exec_read he with ⟨fault, rfl, -⟩ | ⟨rfl, -⟩
  · exact wp_raise fun doc h => nomatch h
  · refine wp_bind (wp_ofExcept (Q := fun x _ _ => x = _) rfl) ?_ fun e _ _ _ _ h => nomatch h
    rintro found _ s₂ hfound
    cases hfound
    split
    · exact wp_pure fun doc h => nomatch h
    · next text htext =>
      refine wp_bind (wp_ofExcept (Q := fun x _ _ => x = _) rfl) ?_ fun e _ _ _ _ h => nomatch h
      rintro doc _ s₃ hdoc
      refine wp_pure fun doc' h => ?_
      cases h
      exact ⟨text, htext, hdoc.symm⟩

theorem atomicWrite_spec (text : List Char) (s : Backend) :
    (atomicWrite text).wp touchMachine (fun x log s' => (s' = s ∧ ∃ e, x = .error e) ∨
      (x = .ok () ∧ s' = s.write text .persistent ∧ log = [⟨.write .persistent text, .ok ()⟩]))
        s := by
  unfold atomicWrite
  split
  · exact wp_raise (.inl ⟨rfl, _, rfl⟩)
  · refine wp_perform_bind fun input r s' he => wp_ofExcept ?_
    rcases exec_write he with ⟨e, rfl, rfl⟩ | ⟨rfl, rfl⟩
    · exact .inl ⟨rfl, e, rfl⟩
    · exact .inr ⟨rfl, rfl, rfl⟩

theorem atomicWriteRuntime_spec (text : List Char) (s : Backend) :
    (atomicWriteRuntime text).wp touchMachine (fun x log s' => (s' = s ∧ ∃ e, x = .error e) ∨
      (x = .ok () ∧ s' = s.write text .effective ∧ log = [⟨.write .effective text, .ok ()⟩]))
        s := by
  unfold atomicWriteRuntime
  split
  · exact wp_raise (.inl ⟨rfl, _, rfl⟩)
  · refine wp_perform_bind fun input r s' he => wp_ofExcept ?_
    rcases exec_write he with ⟨e, rfl, rfl⟩ | ⟨rfl, rfl⟩
    · exact .inl ⟨rfl, e, rfl⟩
    · exact .inr ⟨rfl, rfl, rfl⟩

/-- The runtime write of a matrix, done. -/
def wrote (revision : Nat) (m : Affine) : (o : TouchOp) × o.Ret :=
  ⟨.write .effective (affineEffectiveText C.floats revision m), .ok ()⟩

/-- An apply that fails may have rewritten the effective document. -/
theorem applyAffine_spec (revision : Nat) (m : Affine) (s : Backend) :
    (applyAffine C revision m).wp touchMachine (fun x log s' =>
      Path (applyAffine C revision m) log x ∧
        ((s' = s ∧ ∃ e, x = .error e) ∨
          (s' = s.write (affineEffectiveText C.floats revision m) .effective ∧
            wrote C revision m ∈ log))) s := by
  refine wp_and (wp_path _ s) ?_
  refine wp_bind (atomicWriteRuntime_spec _ s) ?_ ?_
  · rintro _ log s' (⟨-, e, he⟩ | ⟨-, rfl, rfl⟩)
    · exact nomatch he
    have hread : ReadOnly (do
        reloadRuntime C
        if ← affineApplied C revision m then return ()
        else fail (.provider "touch affine runtime readback did not match the request")) := by
      refine (reloadRuntime_readOnly C).bind fun _ =>
        (affineApplied_readOnly C _ _).bind fun ok => ?_
      split
      · exact .pure _
      · exact .raise _
    exact wp_mono (hread.wp _) fun x log s' hs' => .inr ⟨hs', List.mem_cons_self ..⟩
  · rintro e log s' (⟨rfl, -⟩ | ⟨he, -⟩)
    · exact .inl ⟨rfl, e, rfl⟩
    · exact nomatch he

end Apply

/-! ## What a call has verified -/

section Verified

variable (C : Config)

/-- The log holds a receipt of the active generation with the revision and the
    matrix. -/
def Verified (revision : Nat) (m : Affine) (log : TouchLog) : Prop :=
  ∃ text owner generation pid doc,
    ⟨.readApplied, .ok (some text)⟩ ∈ log ∧ ⟨.readOwner, .ok (some owner)⟩ ∈ log ∧
    matchOwner owner = some (generation, pid) ∧
    (splitlines text).head?.bind matchGeneration = some generation ∧
    parseAffineDocument C.floats (document (splitlines text).tail) false
      "touch-affine.applied.env" =
      .ok doc ∧
    doc.revision = revision ∧ matrixEqual C.floats doc.matrix m = true

theorem activeProvider_spec (s : Backend) :
    (activeProvider C).wp touchMachine (fun x log _ => ∀ generation pid, x = .ok (generation, pid) →
      ∃ owner, ⟨.readOwner, .ok (some owner)⟩ ∈ log ∧ matchOwner owner = some (generation, pid))
        s := by
  refine wp_read rfl fun answer => ?_
  split
  · exact wp_raise fun _ _ h => nomatch h
  · exact wp_raise fun _ _ h => nomatch h
  · next owner =>
    split
    · exact wp_raise fun _ _ h => nomatch h
    · next generation pid howner =>
      refine wp_bind (wp_path _ s) (fun _ _ s₁ _ => ?_) (fun e _ s₁ _ _ _ h => nomatch h)
      refine wp_bind (wp_path _ s₁) (fun _ _ s₂ _ => ?_) (fun e _ s₂ _ _ _ h => nomatch h)
      refine wp_read rfl fun alive => ?_
      split
      · refine wp_pure fun generation' pid' h => ?_
        cases h
        exact ⟨owner, List.mem_cons_self .., howner⟩
      · exact wp_raise fun _ _ h => nomatch h

theorem affineApplied_spec (revision : Nat) (m : Affine) (s : Backend) :
    (affineApplied C revision m).wp touchMachine (fun x log s' => s' = s ∧
      (x = .ok true → Verified C revision m log)) s := by
  refine wp_and ((affineApplied_readOnly C revision m).wp s) ?_
  -- The receipt is used only with the generation of the provider that owns the display.
  have hload : (loadAppliedAffine C).wp touchMachine (fun x log _ => ∀ doc, x = .ok (some doc) →
      doc.revision = revision ∧ matrixEqual C.floats doc.matrix m = true →
        Verified C revision m log) s := by
    refine wp_read rfl fun answer => ?_
    refine wp_bind (wp_ofExcept (Q := fun x log _ => x = _ ∧ log = []) ⟨rfl, rfl⟩) ?_
      (fun e _ s₁ _ _ h => nomatch h)
    rintro text _ s₁ ⟨htext, rfl⟩
    have htext := Except.mapError_eq_ok_iff.mp htext.symm
    subst htext
    split
    · exact wp_pure fun _ h => nomatch h
    · next text =>
      dsimp only
      split
      · exact wp_raise fun _ h => nomatch h
      · next generation hgeneration =>
        refine wp_bind (activeProvider_spec C s₁) ?_ (fun e _ s₂ _ _ h => nomatch h)
        rintro ⟨active, pid⟩ log s₂ hactive
        obtain ⟨owner, hmem, howner⟩ := hactive active pid rfl
        dsimp only
        split
        · exact wp_raise fun _ h => nomatch h
        · next hsame =>
          rw [not_not] at hsame
          refine wp_bind (wp_ofExcept (Q := fun x log _ => x = _ ∧ log = []) ⟨rfl, rfl⟩) ?_
            (fun e _ s₁ _ _ h => nomatch h)
          rintro doc _ s₃ ⟨hdoc, rfl⟩
          refine wp_pure fun doc' h hmatch => ?_
          cases h
          refine ⟨text, owner, active, pid, doc, List.mem_cons_self .., ?_, howner,
            hsame ▸ hgeneration, hdoc.symm, hmatch⟩
          exact List.mem_cons_of_mem _ (List.mem_append_right _ (List.mem_append_left _ hmem))
  refine wp_bind hload ?_ fun e _ s' _ h => nomatch h
  intro receipt log s' hverified
  refine wp_pure fun h => ?_
  cases receipt with
  | none => exact nomatch h
  | some doc =>
    rw [Except.ok.injEq, receiptMatches, Bool.and_eq_true, beq_iff_eq] at h
    rw [List.append_nil]
    exact hverified doc rfl h

theorem basisSnapshot_spec (s : Backend) :
    basisSnapshot.wp touchMachine (fun x log s' => s' = s ∧ (∀ basis, x = .ok basis →
      ∃ files, ⟨.loadBasis, files⟩ ∈ log ∧ files.basis = some basis)) s := by
  refine wp_and (basisSnapshot_readOnly.wp s) ?_
  refine wp_read rfl fun files => ?_
  split
  · exact wp_raise fun _ h => nomatch h
  · next basis hbasis =>
    refine wp_pure fun basis' h => ?_
    cases h
    exact ⟨files, List.mem_cons_self .., hbasis⟩

/-- A preview is required by the token of the one in the slot. -/
theorem requirePreview_spec (token : Value) (s : Backend) :
    (requirePreview token).wp touchMachine (fun x _ s' => s' = s ∧ (∀ preview, x = .ok preview →
      s.preview = some preview ∧ token = .str preview.token)) s := by
  refine wp_and ((requirePreview_readOnly token).wp s) ?_
  unfold requirePreview
  split
  · next text =>
    split
    · exact wp_raise fun _ h => by cases h
    · refine wp_slot ?_
      split
      · exact wp_raise fun _ h => by cases h
      · next preview hslot =>
        split
        · next htoken =>
          refine wp_pure fun preview' h => ?_
          cases h
          exact ⟨hslot, htoken ▸ rfl⟩
        · exact wp_raise fun _ h => by cases h
  · exact wp_raise fun _ h => by cases h

end Verified

/-! ## Rolling a preview back -/

/-- The effective document while a preview is in effect. -/
def Preview.text (C : Config) (preview : Preview) : List Char :=
  affineEffectiveText C.floats preview.revision preview.matrix

/-- The effective document after a preview has been rolled back. -/
def Preview.savedText (C : Config) (preview : Preview) : List Char :=
  affineEffectiveText C.floats preview.savedRevision preview.savedMatrix

/-- The persisted document after a preview has been confirmed. -/
def Preview.stateText (C : Config) (preview : Preview) : List Char :=
  affineStateText C.floats preview.revision preview.matrix (some preview.savedMatrix)

/-- The answers of the environment make the rollback of the preview fail: its
    runtime write, the reload of the provider, or the check of the receipt. -/
def RollbackFails (C : Config) (preview : Preview) (log : TouchLog) : Prop :=
  ∃ pre tried post e, log = pre ++ tried ++ post ∧
    Path (applyAffine C preview.savedRevision preview.savedMatrix) tried (.error e)

/-- The rollback of the preview fails after its runtime write: the reload of the
    provider or the check of the receipt fails. -/
def RollbackSpoils (C : Config) (preview : Preview) (log : TouchLog) : Prop :=
  ∃ pre tried post e, log = pre ++ tried ++ post ∧
    Path (applyAffine C preview.savedRevision preview.savedMatrix) tried (.error e) ∧
    wrote C preview.savedRevision preview.savedMatrix ∈ tried

/-- What the rollback of a preview does: nothing, only the runtime write, or the
    whole rollback. -/
inductive Restored (C : Config) (preview : Preview) (s : Backend) (log : TouchLog) : Backend → Prop
  | failed (h : RollbackFails C preview log) : Restored C preview s log s
  | spoiled (h : RollbackFails C preview log) (h' : RollbackSpoils C preview log) :
    Restored C preview s log (s.write (preview.savedText C) .effective)
  | cleared : Restored C preview s log ((s.write (preview.savedText C) .effective).clear preview.id)

variable {C : Config} {preview : Preview} {s s' : Backend} {log : TouchLog}

theorem RollbackFails.mono (h : RollbackFails C preview log) (pre post : TouchLog) :
    RollbackFails C preview (pre ++ log ++ post) := by
  obtain ⟨pre', tried, post', e, rfl, hpath⟩ := h
  exact ⟨pre ++ pre', tried, post' ++ post, e, by simp only [List.append_assoc], hpath⟩

theorem RollbackSpoils.mono (h : RollbackSpoils C preview log) (pre post : TouchLog) :
    RollbackSpoils C preview (pre ++ log ++ post) := by
  obtain ⟨pre', tried, post', e, rfl, hpath⟩ := h
  exact ⟨pre ++ pre', tried, post' ++ post, e, by simp only [List.append_assoc], hpath⟩

theorem Restored.mono (h : Restored C preview s log s') (pre post : TouchLog) :
    Restored C preview s (pre ++ log ++ post) s' := by
  cases h with
  | failed h => exact .failed (h.mono pre post)
  | spoiled h h' => exact .spoiled (h.mono pre post) (h'.mono pre post)
  | cleared => exact .cleared

variable (C) in
theorem restorePreviewLocked_spec (preview : Preview) (s : Backend) :
    (restorePreviewLocked C preview).wp touchMachine (fun x log s' =>
      Restored C preview s log s' ∧ (∀ current, x = .ok current →
        s' = (s.write (preview.savedText C) .effective).clear preview.id)) s := by
  refine wp_bind (applyAffine_spec C _ _ s) ?_ ?_
  · rintro _ log s₁ ⟨-, ⟨-, e, he⟩ | ⟨rfl, -⟩⟩
    · exact nomatch he
    · refine wp_clear ?_
      refine wp_mono ((touchCalibrationGet_readOnly C).wp _) fun x log' s₂ h => ?_
      exact ⟨h ▸ .cleared, fun _ _ => h⟩
  · rintro e log s₁ ⟨hpath, h⟩
    have hfails : RollbackFails C preview log :=
      ⟨[], log, [], e, by rw [List.nil_append, List.append_nil], hpath⟩
    refine ⟨?_, fun _ h => nomatch h⟩
    rcases h with ⟨rfl, -⟩ | ⟨rfl, hmem⟩
    · exact .failed hfails
    · exact .spoiled hfails ⟨[], log, [], e, by rw [List.nil_append, List.append_nil], hpath, hmem⟩

variable (C) in
theorem restoreQuietly_spec (preview : Preview) (s : Backend) :
    (restoreQuietly C preview).wp touchMachine (fun _ log s' => Restored C preview s log s') s := by
  refine wp_attempt_bind (restorePreviewLocked_spec C preview s) fun x log s₁ h => ?_
  have h' : Restored C preview s (log ++ []) s₁ := h.1.mono [] []
  split
  · exact wp_pure h'
  · exact wp_pure h'
  · exact wp_raise h'

/-- What `set_state` does to an active preview before it changes the calibration. -/
def Settled (C : Config) (s : Backend) (log : TouchLog) (s' : Backend) : Prop :=
  s' = s ∨ ∃ preview, s.preview = some preview ∧ Restored C preview s log s'

theorem Settled.mono (h : Settled C s log s') (pre post : TouchLog) :
    Settled C s (pre ++ log ++ post) s' := by
  rcases h with h | ⟨preview, hslot, h⟩
  · exact .inl h
  · exact .inr ⟨preview, hslot, h.mono pre post⟩

/-- The slot is empty when an active preview has been restored. -/
theorem clear_preview_eq_none (h : s.preview = some preview) (text : List Char)
    (file : AffineFile) : ((s.write text file).clear preview.id).preview = none := by
  simp only [Backend.clear, Backend.write_preview, h, Option.filter, bne_self_eq_false,
    Bool.false_eq_true, if_false]

variable (C) in
theorem restoreActive_spec (s : Backend) :
    (restoreActive C).wp touchMachine (fun x log s' => Settled C s log s' ∧
      (x = .ok () → s'.preview = none)) s := by
  refine wp_slot ?_
  split
  · next hslot => exact wp_pure ⟨.inl rfl, fun _ => hslot⟩
  · next preview hslot =>
    refine wp_bind (restorePreviewLocked_spec C preview s) ?_ ?_
    · rintro current log s₁ ⟨h, hok⟩
      refine wp_pure ⟨.inr ⟨preview, hslot, h.mono [_] []⟩, fun _ => ?_⟩
      rw [hok current rfl]
      exact clear_preview_eq_none hslot _ _
    · rintro e log s₁ ⟨h, -⟩
      refine ⟨.inr ⟨preview, hslot, ?_⟩, fun h => nomatch h⟩
      have := h.mono [⟨.slot, s.preview⟩] []
      rwa [List.append_nil] at this

variable (C) in
theorem settle_spec (changed : Bool) (part : Stage) (s : Backend) :
    (settle C changed part).wp touchMachine (fun x log s' => Settled C s log s' ∧
      (x = .ok () → s' = s ∨ s'.preview = none)) s := by
  unfold settle
  split
  · refine wp_bind (restoreActive_spec C s) ?_ ?_
    · rintro _ log s₁ ⟨h, hnone⟩
      exact wp_mono ((stage_readOnly part).wp s₁) fun x log' s₂ heq =>
        heq ▸ ⟨h.mono [] log', fun _ => .inr (hnone rfl)⟩
    · rintro e log s₁ ⟨h, -⟩
      exact ⟨h, fun h => nomatch h⟩
  · exact wp_pure ⟨.inl rfl, fun _ => .inl rfl⟩

/-- A second settlement from a slot that is empty or has not been touched. -/
theorem Settled.trans {log' : TouchLog} {s'' : Backend} (h : Settled C s log s')
    (hnone : s' = s ∨ s'.preview = none) (h' : Settled C s' log' s'') :
    Settled C s (log ++ log') s'' := by
  rcases hnone with rfl | hnone
  · have := h'.mono log []
    rwa [List.append_nil] at this
  · rcases h' with rfl | ⟨preview, hslot, -⟩
    · exact h.mono [] log'
    · rw [hnone] at hslot
      exact nomatch hslot

theorem reapply_readOnly (C : Config) (changes : Changes) (hot ready : Bool) :
    ReadOnly (reapply C changes hot ready) := by
  unfold reapply
  split
  · exact stage_readOnly _
  · split
    · exact reloadRuntime_readOnly C
    · exact .pure _

variable (C) in
theorem setState_spec (changes : Changes) (s : Backend) :
    (setState C changes).wp touchMachine (fun _ log s' => Settled C s log s') s := by
  refine wp_read rfl fun answer => ?_
  have hanswer : ReadOnly (Prog.ofExcept answer) := .ofExcept answer
  refine wp_bind (hanswer.wp s) ?_ fun e log s₁ h => .inl h
  rintro ⟨hot, ready⟩ log₀ s₀ rfl
  refine wp_bind (settle_spec C changes.calibration .calibration s₀) ?_ ?_
  · rintro _ log₁ s₁ ⟨h₁, hnone⟩
    refine wp_bind (settle_spec C changes.rotation .rotation s₁) ?_ ?_
    · rintro _ log₂ s₂ ⟨h₂, -⟩
      have hrest : ReadOnly (do
          stage .documents
          reapply C changes hot ready
          stage .state) :=
        (stage_readOnly _).bind fun _ => (reapply_readOnly C _ _ _).bind fun _ => stage_readOnly _
      refine wp_mono (hrest.wp s₂) fun x log₃ s₃ heq => heq ▸ ?_
      have := (h₁.trans (hnone rfl) h₂).mono (⟨.settings, answer⟩ :: log₀) log₃
      simpa only [List.append_assoc, List.cons_append] using this
    · rintro e log₂ s₂ ⟨h₂, -⟩
      have := (h₁.trans (hnone rfl) h₂).mono (⟨.settings, answer⟩ :: log₀) []
      simpa only [List.append_assoc, List.append_nil, List.cons_append] using this
  · rintro e log₁ s₁ ⟨h₁, -⟩
    have := h₁.mono (⟨.settings, answer⟩ :: log₀) []
    rwa [List.append_nil] at this

/-! ## Confirming -/

/-- What has been read before a preview is persisted: a clock before its
    deadline, its basis, and a receipt of it. -/
structure Permitted (C : Config) (preview : Preview) (pre : TouchLog) : Prop where
  clock : ∃ now, ⟨.clock, now⟩ ∈ pre ∧ now < preview.deadline
  basis : ∃ files, ⟨.loadBasis, files⟩ ∈ pre ∧ files.basis = some preview.basis
  receipt : Verified C preview.revision preview.matrix pre

/-- The preview of the token has been persisted and the slot emptied. -/
structure Confirmed (C : Config) (token : Value) (preview : Preview) (s : Backend) (log : TouchLog)
    (s' : Backend) : Prop where
  active : s.preview = some preview
  named : token = .str preview.token
  permitted : ∃ pre post, log = pre ++ ⟨.write .persistent (preview.stateText C), .ok ()⟩ :: post ∧
    Permitted C preview pre
  after : s' = (s.write (preview.stateText C) .persistent).clear preview.id

/-- A confirm that returns has persisted the preview; one that raises has done so
    too, or has left the slot or rolled it back. -/
def ConfirmPost (C : Config) (token : Value) (s : Backend) (x : Except PyError Calibration)
    (log : TouchLog) (s' : Backend) : Prop :=
  (∃ preview, Confirmed C token preview s log s') ∨ ((∃ e, x = .error e) ∧ Settled C s log s')

/-- A branch of `touch_calibration_confirm` that gives up. -/
private theorem wp_giveUp {token : Value} (hactive : s.preview = some preview) (error : HalError)
    (log₀ : TouchLog) :
    (restorePreviewLocked C preview >>= fun _ => (fail error : TouchM Calibration)).wp touchMachine
      (fun x log s' => ConfirmPost C token s x (log₀ ++ log) s') s := by
  refine wp_bind (restorePreviewLocked_spec C preview s) ?_ ?_
  · rintro current log s₁ ⟨h, -⟩
    refine wp_raise <| .inr ⟨⟨_, rfl⟩, .inr ⟨preview, hactive, ?_⟩⟩
    simpa only [List.append_assoc] using h.mono log₀ []
  · rintro e log s₁ ⟨h, -⟩
    refine .inr ⟨⟨_, rfl⟩, .inr ⟨preview, hactive, ?_⟩⟩
    simpa only [List.append_nil] using h.mono log₀ []

variable (C) in
theorem touchCalibrationConfirm_spec (token : Value) (s : Backend) :
    (touchCalibrationConfirm C token).wp touchMachine (ConfirmPost C token s) s := by
  refine wp_bind (requirePreview_spec token s) ?_ fun e log s₁ h => .inr ⟨⟨e, rfl⟩, .inl h.1⟩
  rintro preview log₀ s₀ ⟨rfl, hpreview⟩
  obtain ⟨hactive, hnamed⟩ := hpreview preview rfl
  refine wp_read rfl fun now => ?_
  -- The deadline has passed: the preview is given up.
  split
  · exact wp_mono (wp_giveUp hactive _ (log₀ ++ [⟨.clock, now⟩])) fun x log s' h => by
      simpa only [List.append_assoc, List.singleton_append] using h
  · next hnow =>
    refine wp_bind (basisSnapshot_spec s₀) ?_ fun e log s₁ h => .inr ⟨⟨e, rfl⟩, .inl h.1⟩
    rintro basis log₁ s₁ ⟨rfl, hbasis⟩
    obtain ⟨files, hfiles, hbasis⟩ := hbasis basis rfl
    -- The basis has changed since the preview began, so it is given up as well.
    split
    · exact wp_mono (wp_giveUp hactive _ (log₀ ++ ⟨.clock, now⟩ :: log₁)) fun x log s' h => by
        simpa only [List.append_assoc, List.cons_append] using h
    · next hsame =>
      rw [not_not] at hsame
      refine wp_bind (affineApplied_spec C _ _ s₁) ?_ fun e log s₁ h => .inr ⟨⟨e, rfl⟩, .inl h.1⟩
      rintro applied log₂ s₂ ⟨rfl, hverified⟩
      -- Only what the display has applied becomes the saved matrix.
      split
      · next happlied =>
        have hpermitted : Permitted C preview (log₀ ++ ⟨.clock, now⟩ :: (log₁ ++ log₂)) := by
          refine ⟨⟨now, by simp, not_le.mp hnow⟩, ⟨files, by simp [hfiles], hsame ▸ hbasis⟩, ?_⟩
          obtain ⟨text, owner, generation, pid, doc, happ, hown, hrest⟩ :=
            hverified (happlied ▸ rfl)
          exact ⟨text, owner, generation, pid, doc, by simp [happ], by simp [hown], hrest⟩
        refine wp_bind (atomicWrite_spec _ s₂) ?_ ?_
        · rintro _ log₃ s₃ (⟨-, e, he⟩ | ⟨-, rfl, rfl⟩)
          · exact nomatch he
          refine wp_clear ?_
          refine wp_mono ((touchCalibrationGet_readOnly C).wp _) fun x log₄ s₄ h => ?_
          refine .inl ⟨preview, hactive, hnamed,
            ⟨_, ⟨.clear preview.id, ()⟩ :: log₄, ?_, hpermitted⟩, h⟩
          simp only [List.append_assoc, List.cons_append, List.nil_append]
          rfl
        · rintro e log₃ s₃ (⟨rfl, -⟩ | ⟨he, -⟩)
          · exact .inr ⟨⟨e, rfl⟩, .inl rfl⟩
          · exact nomatch he
      · exact wp_mono (wp_giveUp hactive _ (log₀ ++ ⟨.clock, now⟩ :: (log₁ ++ log₂)))
          fun x log s' h => by simpa only [List.append_assoc, List.cons_append] using h

theorem touchCalibrationCancel_spec (C : Config) (token : Value) (s : Backend) :
    (touchCalibrationCancel C token).wp touchMachine (fun _ log s' => Settled C s log s') s := by
  refine wp_bind (requirePreview_spec token s) ?_ fun e log s₁ h => .inl h.1
  rintro preview log₀ s₀ ⟨rfl, hpreview⟩
  refine wp_mono (restorePreviewLocked_spec C preview s₀) fun x log s' h => ?_
  have := h.1.mono log₀ []
  rw [List.append_nil] at this
  exact .inr ⟨preview, (hpreview preview rfl).1, this⟩

/-! ## Starting a preview -/

/-- The effective document reads as the given one. -/
def EffectiveIs (C : Config) (s : Backend) (doc : AffineDocument) : Prop :=
  ∃ text, s.effective = some text ∧
    parseAffineDocument C.floats text false AffineFile.effective.name = .ok doc

/-- A writable calibration is the one of the effective document. -/
theorem touchCalibrationGet_spec (C : Config) (s : Backend) :
    (touchCalibrationGet C).wp touchMachine (fun x _ s' => s' = s ∧ (∀ current, x = .ok current →
      current.writable = true → ∃ doc, EffectiveIs C s doc ∧ current.revision = doc.revision ∧
        current.matrix = doc.matrix)) s := by
  refine wp_and ((touchCalibrationGet_readOnly C).wp s) ?_
  refine wp_bind ((loadAffineFile_readOnly C .persistent).wp s) ?_ fun e _ _ _ _ h => nomatch h
  rintro persistent _ s₀ rfl
  refine wp_bind (loadAffineFile_spec C .effective s₀) ?_ fun e _ _ _ _ h => nomatch h
  rintro effective _ s₁ ⟨rfl, heffective⟩
  refine wp_bind (basisSnapshot_readOnly.wp s₁) ?_ fun e _ _ _ _ h => nomatch h
  rintro basis _ s₂ rfl
  refine wp_bind ((effectiveApplied_readOnly C effective).wp s₂) ?_ fun e _ _ _ _ h => nomatch h
  rintro applied _ s₃ rfl
  refine wp_pure fun current h hwritable => ?_
  cases h
  cases effective with
  | none => simp only [Option.isSome_none, Bool.and_false, Bool.false_and, Bool.false_eq_true]
      at hwritable
  | some doc => exact ⟨doc, heffective doc rfl, rfl, rfl⟩

/-- The matrix a preview request asks for. -/
def requestedMatrix (C : Config) (request : List (Value × Value)) : Option Affine :=
  match (Value.lookup "use_default" request).getD (.bool false) with
  | .bool true => some identityAffine
  | _ => (Value.lookup "matrix" request).bind fun matrix =>
      (validatedAffine C.floats matrix).toOption

/-- The revision a preview request expects to be current. -/
def expectedRevision (request : List (Value × Value)) : Except HalError Int :=
  integer ((Value.lookup "expected_revision" request).getD .null) "expected_revision" 0
    maxAffineRevision

theorem previewRequest_spec (C : Config) (request : List (Value × Value)) (s : Backend) :
    (previewRequest C request).wp touchMachine (fun x _ s' => s' = s ∧ (∀ m basis,
      x = .ok (m, basis) → requestedMatrix C request = some m)) s := by
  refine wp_and ((previewRequest_readOnly C request).wp s) ?_
  unfold previewRequest
  split
  · next hdefault =>
    split
    · exact wp_raise fun _ _ h => nomatch h
    · refine wp_bind (basisSnapshot_readOnly.wp s) ?_ fun e _ _ _ _ _ h => nomatch h
      intro basis _ s₁ _
      refine wp_pure fun m basis' h => ?_
      cases h
      rw [requestedMatrix, hdefault]
  · next hgiven =>
    split
    · next matrix basis hmatrix _ =>
      refine wp_bind (wp_ofExcept (Q := fun x _ _ => x = _) rfl) ?_ fun e _ _ _ _ _ h => nomatch h
      intro m _ s₁ hm
      refine wp_bind (wp_path _ s₁) (fun basis' _ s₂ _ => ?_) fun e _ _ _ _ _ h => nomatch h
      refine wp_bind (basisSnapshot_readOnly.wp s₂) ?_ fun e _ _ _ _ _ h => nomatch h
      intro current _ s₃ _
      split
      · refine wp_pure fun m' basis' h => ?_
        cases h
        rw [requestedMatrix, hgiven]
        dsimp only
        rw [hmatrix, Option.bind_some, ← hm]
        rfl
      · exact wp_raise fun _ _ h => nomatch h
    · exact wp_raise fun _ _ h => nomatch h
  · exact wp_raise fun _ _ h => nomatch h

/-- The checks of a preview change nothing; when they pass, the slot is empty and
    the current calibration is the one of the effective document. -/
def Checked (C : Config) (s : Backend) (x : Except PyError (Calibration × Int × Affine × Basis))
    (s' : Backend) : Prop :=
  s' = s ∧ ∀ current ttlMs m basis, x = .ok (current, ttlMs, m, basis) → s.preview = none ∧
    ∃ doc, EffectiveIs C s doc ∧ current.revision = doc.revision ∧ current.matrix = doc.matrix

/-- A request that passes the checks asks for the matrix and expects the current
    revision, which is not the last one. -/
def Accepted (C : Config) (request : List (Value × Value)) (current : Nat) (m : Affine) : Prop :=
  requestedMatrix C request = some m ∧ expectedRevision request = .ok (current : Int) ∧
    current < maxAffineRevision

theorem previewChecks_spec (C : Config) (request : List (Value × Value)) (s : Backend) :
    (previewChecks C request).wp touchMachine (fun x _ s' => Checked C s x s' ∧
      ∀ current ttlMs m basis, x = .ok (current, ttlMs, m, basis) →
        Accepted C request current.revision m) s := by
  have hraise : ∀ e : PyError, Checked C s (.error e) s ∧ ∀ current ttlMs m basis,
      (.error e : Except PyError (Calibration × Int × Affine × Basis)) =
        .ok (current, ttlMs, m, basis) → Accepted C request current.revision m :=
    fun e => ⟨⟨rfl, fun _ _ _ _ h => nomatch h⟩, fun _ _ _ _ h => nomatch h⟩
  -- The checks stand in the order of the source; none of them writes.
  refine wp_slot ?_
  split
  · exact wp_raise (hraise _)
  · next hslot =>
    have hnone : s.preview = none := Option.not_isSome_iff_eq_none.mp hslot
    refine wp_bind (touchCalibrationGet_spec C s) ?_ fun e _ _ h => h.1 ▸ hraise e
    rintro current _ s₁ ⟨rfl, hcurrent⟩
    split
    · exact wp_raise (hraise _)
    · next hwritable =>
      have hdoc := hcurrent current rfl (by simpa using hwritable)
      refine wp_bind (wp_ofExcept (Q := fun x _ s₂ => x = _ ∧ s₂ = s₁) ⟨rfl, rfl⟩) ?_
        fun e _ _ h => h.2 ▸ hraise e
      rintro expected _ s₂ ⟨hexpected, rfl⟩
      have hexpected := Except.mapError_eq_ok_iff.mp hexpected.symm
      split
      · exact wp_raise (hraise _)
      · next hsame =>
        rw [not_not] at hsame
        refine wp_bind (ReadOnly.wp (.ofExcept _) s₂) ?_ fun e _ _ h => h ▸ hraise e
        rintro ttlMs _ s₃ rfl
        refine wp_bind (previewRequest_spec C request s₃) ?_ fun e _ _ h => h.1 ▸ hraise e
        rintro ⟨m, basis⟩ _ s₄ ⟨rfl, hm⟩
        dsimp only
        split
        · exact wp_raise (hraise _)
        · next hbound =>
          refine wp_pure ⟨⟨rfl, fun current' ttlMs' m' basis' h => ?_⟩,
            fun current' ttlMs' m' basis' h => ?_⟩
          · cases h
            exact ⟨hnone, hdoc⟩
          · cases h
            exact ⟨hm m basis rfl, hsame ▸ hexpected, not_le.mp hbound⟩

/-- Applying a preview, or putting the saved matrix back: only the effective
    document changes. -/
theorem applyPreview_spec (C : Config) (revision : Nat) (m : Affine) (savedRevision : Nat)
    (savedMatrix : Affine) (s : Backend) :
    (applyPreview C revision m savedRevision savedMatrix).wp touchMachine (fun x _ s' =>
      (s' = s ∨ ∃ text, s' = s.write text .effective) ∧
      (x = .ok () → s' = s.write (affineEffectiveText C.floats revision m) .effective)) s := by
  refine wp_attempt_bind (applyAffine_spec C revision m s) ?_
  rintro x log s₁ ⟨-, h⟩
  have hmid : s₁ = s ∨ ∃ text, s₁ = s.write text .effective := by
    rcases h with ⟨rfl, -⟩ | ⟨rfl, -⟩
    · exact .inl rfl
    · exact .inr ⟨_, rfl⟩
  split
  · rcases h with ⟨-, e, he⟩ | ⟨rfl, -⟩
    · exact nomatch he
    · exact wp_pure ⟨hmid, fun _ => rfl⟩
  · refine wp_attempt_bind (applyAffine_spec C savedRevision savedMatrix s₁) ?_
    rintro y log' s₂ ⟨-, h'⟩
    have hend : s₂ = s ∨ ∃ text, s₂ = s.write text .effective := by
      rcases h' with ⟨rfl, -⟩ | ⟨rfl, -⟩
      · exact hmid
      · rcases hmid with rfl | ⟨text, rfl⟩
        · exact .inr ⟨_, rfl⟩
        · exact .inr ⟨_, rfl⟩
    split
    · exact wp_raise ⟨hend, fun h => nomatch h⟩
    · exact wp_raise ⟨hend, fun h => nomatch h⟩
    · exact wp_raise ⟨hend, fun h => nomatch h⟩
  · exact wp_raise ⟨hmid, fun h => nomatch h⟩

/-- A preview has been put in the empty slot, with the effective document of that
    moment as its saved value; `started` tells whether its watcher runs. -/
structure Started (C : Config) (draft : Draft) (started : Bool) (s : Backend) (log : TouchLog)
    (s' : Backend) : Prop where
  empty : s.preview = none
  saved : ∃ doc, EffectiveIs C s doc ∧ draft.savedRevision = doc.revision ∧
    draft.savedMatrix = doc.matrix
  revision : draft.revision = draft.savedRevision + 1
  spawn : ⟨.startWatcher s.watchers.length, started⟩ ∈ log
  after : s' =
    ((s.write (affineEffectiveText C.floats draft.revision draft.matrix) .effective).install
    draft).setWatcher s.watchers.length ({ · with alive := started })

/-- A call that raises without an effect, or after a runtime write only. -/
def Aborted {α : Type} (s : Backend) (x : Except PyError α) (s' : Backend) : Prop :=
  (∃ e, x = .error e) ∧ (s' = s ∨ (s.preview = none ∧ ∃ text, s' = s.write text .effective))

theorem touchCalibrationPreview_spec (C : Config) (request : List (Value × Value)) (s : Backend) :
    (touchCalibrationPreview C request).wp touchMachine (fun x log s' => Aborted s x s' ∨
      ∃ draft started, Started C draft started s log s' ∧
        Accepted C request draft.savedRevision draft.matrix) s := by
  refine wp_bind (previewChecks_spec C request s) ?_ fun e _ _ h => .inl ⟨⟨e, rfl⟩, .inl h.1.1⟩
  rintro ⟨current, ttlMs, m, basis⟩ log₀ s₀ ⟨⟨rfl, hchecks⟩, haccepted⟩
  obtain ⟨hnone, doc, hdoc, hrevision, hmatrix⟩ := hchecks current ttlMs m basis rfl
  have haccepted := haccepted current ttlMs m basis rfl
  dsimp only
  refine wp_bind (applyPreview_spec C _ m current.revision current.matrix s₀) ?_ ?_
  · rintro _ log₁ s₁ ⟨-, hok⟩
    obtain rfl := hok rfl
    refine wp_read rfl fun token => wp_read rfl fun now => ?_
    generalize hdraft :
        Draft.mk token (current.revision + 1) m current.revision current.matrix basis
      _ = draft
    have hstarted : ∀ (started : Bool) (log : TouchLog),
        ⟨.startWatcher s₀.watchers.length, started⟩ ∈ log → Started C draft started s₀ log
          (((s₀.write (affineEffectiveText C.floats (current.revision + 1) m) .effective).install
            draft).setWatcher s₀.watchers.length ({ · with alive := started })) ∧
          Accepted C request draft.savedRevision draft.matrix := by
      intro started log hmem
      subst hdraft
      exact ⟨⟨hnone, ⟨doc, hdoc, hrevision, hmatrix⟩, rfl, hmem, rfl⟩, haccepted⟩
    clear hdraft
    refine wp_install (wp_startWatcher fun started => ?_)
    split
    · exact wp_pure (.inr ⟨draft, started, hstarted started _ (by simp)⟩)
    · exact wp_raise (.inr ⟨draft, started, hstarted started _ (by simp)⟩)
  · rintro e log₁ s₁ ⟨h, -⟩
    refine .inl ⟨⟨e, rfl⟩, ?_⟩
    rcases h with h | h
    · exact .inl h
    · exact .inr ⟨hnone, h⟩

/-! ## Undoing -/

/-- The persisted document has been swapped with its undo value. -/
structure Undone (C : Config) (revision : Nat) (m previous : Affine) (s s' : Backend) : Prop where
  empty : s.preview = none
  read : ∃ text, s.persistent = some text ∧
    parseAffineDocument C.floats text true AffineFile.persistent.name =
      .ok ⟨revision, m, some previous⟩
  bound : revision < maxAffineRevision
  after : s' = (s.write (affineEffectiveText C.floats (revision + 1) previous) .effective).write
    (affineStateText C.floats (revision + 1) previous (some m)) .persistent

theorem touchCalibrationUndo_spec (C : Config) (s : Backend) :
    (touchCalibrationUndo C).wp touchMachine (fun x _ s' => Aborted s x s' ∨
      ∃ revision m previous, Undone C revision m previous s s') s := by
  have hkept : ∀ e : PyError, Aborted s (.error e : Except PyError Calibration) s :=
    fun e => ⟨⟨e, rfl⟩, .inl rfl⟩
  refine wp_slot ?_
  split
  · exact wp_raise (.inl (hkept _))
  · next hslot =>
    have hnone : s.preview = none := Option.not_isSome_iff_eq_none.mp hslot
    refine wp_bind (loadAffineFile_spec C .persistent s) ?_ fun e _ _ h => .inl (h.1 ▸ hkept e)
    rintro found _ s₀ ⟨rfl, hfound⟩
    split
    -- The file is there and holds a matrix to go back to.
    · next revision m previous =>
      obtain ⟨text, htext, hparse⟩ := hfound _ rfl
      split
      · exact wp_raise (.inl (hkept _))
      · next hbound =>
        -- The old matrix is shown; what fails from here on leaves it shown.
        refine wp_bind (applyAffine_spec C _ _ s₀) ?_ ?_
        · rintro _ log₁ s₁ ⟨-, ⟨-, e, he⟩ | ⟨rfl, -⟩⟩
          · exact nomatch he
          refine wp_attempt_bind (atomicWrite_spec _ _) ?_
          rintro y log₂ s₂ (⟨rfl, e, rfl⟩ | ⟨rfl, rfl, -⟩)
          -- The save failed, so the matrix before it is shown again.
          · split
            · next h => exact nomatch h
            · refine wp_bind (applyAffine_spec C _ _ _) ?_ ?_
              · rintro _ log₃ s₃ ⟨-, ⟨rfl, -⟩ | ⟨rfl, -⟩⟩
                · exact wp_raise (.inl ⟨⟨_, rfl⟩, .inr ⟨hnone, _, rfl⟩⟩)
                · exact wp_raise (.inl ⟨⟨_, rfl⟩, .inr ⟨hnone, _, rfl⟩⟩)
              · rintro e log₃ s₃ ⟨-, ⟨rfl, -⟩ | ⟨rfl, -⟩⟩
                · exact .inl ⟨⟨e, rfl⟩, .inr ⟨hnone, _, rfl⟩⟩
                · exact .inl ⟨⟨e, rfl⟩, .inr ⟨hnone, _, rfl⟩⟩
            -- The save succeeded, and the answer is what `get` reads of it.
            · exact wp_raise (.inl ⟨⟨_, rfl⟩, .inr ⟨hnone, _, rfl⟩⟩)
          · refine wp_mono ((touchCalibrationGet_readOnly C).wp _) fun x log₃ s₃ h => ?_
            exact .inr ⟨revision, m, previous, hnone, ⟨text, htext, hparse⟩, not_le.mp hbound, h⟩
        · rintro e log₁ s₁ ⟨-, ⟨rfl, -⟩ | ⟨rfl, -⟩⟩
          · exact .inl (hkept e)
          · exact .inl ⟨⟨e, rfl⟩, .inr ⟨hnone, _, rfl⟩⟩
    · exact wp_raise (.inl (hkept _))

/-- The recovery at start only rewrites the effective document. -/
theorem recoverStalePreview_spec (C : Config) (s : Backend) :
    (recoverStalePreview C).wp touchMachine
      (fun _ _ s' => s' = s ∨ ∃ text, s' = s.write text .effective) s := by
  refine wp_bind ((loadAffineFile_readOnly C .persistent).wp s) ?_ fun e _ _ h => .inl h
  rintro persistent _ s₀ rfl
  refine wp_bind ((loadAffineFile_readOnly C .effective).wp s₀) ?_ fun e _ _ h => .inl h
  rintro effective _ s₁ rfl
  split
  · split
    · refine wp_mono (applyAffine_spec C _ _ s₁) ?_
      rintro x log s₂ ⟨-, ⟨rfl, -⟩ | ⟨rfl, -⟩⟩
      · exact .inl rfl
      · exact .inr ⟨_, rfl⟩
    · exact wp_pure (.inl rfl)
  · exact wp_pure (.inl rfl)

theorem close_spec (C : Config) (s : Backend) :
    (close C).wp touchMachine (fun _ log s' => Settled C s log s') s := by
  refine wp_slot ?_
  split
  · exact wp_pure (.inl rfl)
  · next preview hslot =>
    refine wp_mono (restoreQuietly_spec C preview s) fun x log s' h => ?_
    have := h.mono [⟨.slot, s.preview⟩] []
    rw [List.append_nil] at this
    exact .inr ⟨preview, hslot, this⟩

/-! ## The watcher -/

/-- What a round of a watcher does: nothing, the end of the thread, or a rollback
    and the end of the thread. -/
inductive Watches (C : Config) (id : Nat) (s : Backend) (log : TouchLog) : Backend → Prop
  | waits : Watches C id s log s
  | ends (watcher : Watcher) (h : s.watchers[id]? = some watcher)
    (h' : watcher.stop = true ∨ s.preview = none ∨
      ∃ preview, s.preview = some preview ∧ preview.token ≠ watcher.token) :
    Watches C id s log (s.endWatcher id)
  | rollsBack (preview : Preview) (mid : Backend) (h : s.preview = some preview)
    (hr : Restored C preview s log mid) : Watches C id s log (mid.endWatcher id)

theorem exec_wake {id : Nat} {input : (o : TouchOp) → o.Env} {s s' : Backend} {r : Watcher}
    (he : touchMachine.exec (.wake id) input s = some (r, s')) :
    s.watchers[id]? = some r ∧ s' = s := by
  change touchExec (.wake id) (input (.wake id)) s = some (r, s') at he
  simp only [touchExec] at he
  split at he
  · next watcher hwatcher =>
    split at he
    · simp only [Option.some.injEq, Prod.mk.injEq] at he
      exact ⟨he.1 ▸ hwatcher, he.2.symm⟩
    · exact nomatch he
  · exact nomatch he

theorem wp_endWatcher {Q : Except PyError Unit → TouchLog → Backend → Prop} {s : Backend} {id : Nat}
    (h : Q (.ok ()) [⟨.endWatcher id, ()⟩] (s.endWatcher id)) :
    (op (.endWatcher id)).wp touchMachine Q s := by
  refine Interleave.wp_perform fun input r s' he => ?_
  change some ((), s.endWatcher id) = some (r, s') at he
  cases he
  exact h

theorem previewWatch_spec (C : Config) (id : Nat) (s : Backend) :
    (previewWatch C id).wp touchMachine (fun _ log s' => Watches C id s log s') s := by
  refine wp_perform_bind fun input watcher s₀ he => ?_
  obtain ⟨hwatcher, rfl⟩ := exec_wake he
  split
  · next hstop => exact wp_endWatcher (.ends watcher hwatcher (.inl hstop))
  · refine wp_slot ?_
    split
    · next hslot => exact wp_endWatcher (.ends watcher hwatcher (.inr (.inl hslot)))
    · next preview hslot =>
      split
      · next htoken =>
        exact wp_endWatcher (.ends watcher hwatcher (.inr (.inr ⟨preview, hslot, htoken⟩)))
      · refine wp_read rfl fun now => ?_
        refine wp_bind ((basisChanged_readOnly preview).wp s₀) ?_ fun e log s₁ h => h ▸ .waits
        rintro changed log₁ s₁ rfl
        split
        · refine wp_attempt_bind (restoreQuietly_spec C preview s₁) ?_
          intro x log₂ s₂ h
          refine wp_bind (wp_endWatcher (Q := fun x log s' => x = .ok () ∧ s' = s₂.endWatcher id)
            ⟨rfl, rfl⟩) ?_ fun e _ _ h => nomatch h.1
          rintro _ log₃ s₃ ⟨-, rfl⟩
          refine wp_ofExcept (.rollsBack preview s₂ hslot ?_)
          have := h.mono (⟨.wake id, watcher⟩ :: ⟨.slot, s₁.preview⟩ :: ⟨.clock, now⟩ :: log₁)
            (log₃ ++ [])
          simpa only [List.cons_append, List.append_assoc] using this
        · exact wp_pure .waits

/-! ## What a call can do -/

/-- The changes a call can make. -/
inductive Change (C : Config) (s : Backend) (log : TouchLog) : Call → Backend → Prop
  | kept (call : Call) : Change C s log call s
  | runtime (call : Call) (text : List Char) (h : s.preview = none) :
    Change C s log call (s.write text .effective)
  | started {s' : Backend} (request : List (Value × Value)) (draft : Draft) (started : Bool)
    (h : Started C draft started s log s') : Change C s log (.preview request) s'
  | confirmed {s' : Backend} (token : Value) (preview : Preview)
    (h : Confirmed C token preview s log s') : Change C s log (.confirm token) s'
  | restored {s' : Backend} (call : Call) (preview : Preview) (h : s.preview = some preview)
    (hr : Restored C preview s log s') : Change C s log call s'
  | undone {s' : Backend} (revision : Nat) (m previous : Affine)
    (h : Undone C revision m previous s s') : Change C s log .undo s'
  | watched {s' : Backend} (id : Nat) (h : Watches C id s log s') : Change C s log (.watch id) s'

theorem Settled.change (h : Settled C s log s') (call : Call) : Change C s log call s' := by
  rcases h with rfl | ⟨preview, hslot, h⟩
  · exact .kept call
  · exact .restored call preview hslot h

theorem Aborted.change {α : Type} {x : Except PyError α} (h : Aborted s x s') (call : Call) :
    Change C s log call s' := by
  rcases h with ⟨-, rfl | ⟨hnone, text, rfl⟩⟩
  · exact .kept call
  · exact .runtime call text hnone

/-- A call whose answer is dropped. -/
private theorem wp_dropped {α : Type} {p : TouchM α} {Q : TouchLog → Backend → Prop} {s : Backend}
    (h : p.wp touchMachine (fun _ log s' => Q log s') s) :
    (do let _ ← p : TouchM Unit).wp touchMachine (fun _ log s' => Q log s') s := by
  refine wp_bind h (fun a log s' hQ => wp_pure ?_) fun e log s' hQ => hQ
  rw [List.append_nil]
  exact hQ

/-- What a call can do to the documents, the slot and the watchers. The recovery
    at start is made before there is a preview. -/
theorem program_spec (C : Config) (call : Call) (s : Backend)
    (hstart : call = .recover → s.preview = none) :
    (program C call).wp touchMachine (fun _ log s' => Change C s log call s') s := by
  cases call with
  | recover =>
    refine wp_mono (recoverStalePreview_spec C s) fun x log s' h => ?_
    rcases h with rfl | ⟨text, rfl⟩
    · exact .kept _
    · exact .runtime _ text (hstart rfl)
  | get => exact wp_dropped (wp_mono ((touchCalibrationGet_readOnly C).wp s) fun x log s' h =>
      h ▸ .kept _)
  | preview request =>
    refine wp_dropped (wp_mono (touchCalibrationPreview_spec C request s) fun x log s' h => ?_)
    rcases h with h | ⟨draft, started, h, -⟩
    · exact h.change _
    · exact .started request draft started h
  | confirm token =>
    refine wp_dropped (wp_mono (touchCalibrationConfirm_spec C token s) fun x log s' h => ?_)
    rcases h with ⟨preview, h⟩ | ⟨-, h⟩
    · exact .confirmed token preview h
    · exact h.change _
  | cancel token =>
    refine wp_dropped (wp_mono (touchCalibrationCancel_spec C token s) fun x log s' h => h.change _)
  | undo =>
    refine wp_dropped (wp_mono (touchCalibrationUndo_spec C s) fun x log s' h => ?_)
    rcases h with h | ⟨revision, m, previous, h⟩
    · exact h.change _
    · exact .undone revision m previous h
  | setState changes => exact wp_mono (setState_spec C changes s) fun x log s' h => h.change _
  | watch id => exact wp_mono (previewWatch_spec C id s) fun x log s' h => .watched id h
  | close => exact wp_mono (close_spec C s) fun x log s' h => h.change _

end MsysHal.Ch347

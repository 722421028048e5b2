import MsysHal.Spec.Calibration

/-!
# What a touch calibration revision stands for

`touch_calibration_get` reports the revision and the matrix of the effective
document. A preview takes the number after the current one, and a rollback gives
it back: the next preview, or an undo, takes it again. So a number stands for one
matrix only in the runs in which the steps that take a number twice take it for
one matrix.

## Key results

- `touchCalibrationGet_shows`: what is reported in a state
- `revision_identifies_matrix`: two reports of one revision agree, and an accepted
  preview starts from the matrix that was reported under the revision it expects
- `revision_reused`: a run in which a number is taken for two matrices
-/

namespace MsysHal.Ch347

open Python (Value)
open Interleave (Prog Path wp_of_run wp_bind wp_pure wp_raise wp_and wp_path wp_mono)

/-! ## What is reported -/

/-- The revision and the matrix that are reported in a state: those of the
    effective document, or while there is none those of the persisted one. -/
def Shows (C : Config) (s : Backend) (revision : Nat) (m : Affine) : Prop :=
  match s.effective, s.persistent with
  | some text, _ => ∃ previous,
    parseAffineDocument C.floats text false AffineFile.effective.name = .ok ⟨revision, m, previous⟩
  | none, some text => ∃ previous,
    parseAffineDocument C.floats text true AffineFile.persistent.name = .ok ⟨revision, m, previous⟩
  | none, none => revision = 0 ∧ m = identityAffine

/-- The event is a `get` that answered with the calibration. -/
def Reports (C : Config) (e : TouchEvent) (current : Calibration) : Prop :=
  e.call = .get ∧ Path (touchCalibrationGet C) e.log (.ok current)

theorem Shows.effective {C : Config} {s : Backend} {text : List Char} {revision : Nat} {m : Affine}
    (h : Shows C s revision m) (htext : s.effective = some text) : ∃ previous,
      parseAffineDocument C.floats text false AffineFile.effective.name =
        .ok ⟨revision, m, previous⟩ := by
  rw [Shows, htext] at h
  exact h

theorem EffectiveIs.shows {C : Config} {s : Backend} {doc : AffineDocument}
    (h : EffectiveIs C s doc) : Shows C s doc.revision doc.matrix := by
  obtain ⟨text, htext, hparse⟩ := h
  rw [Shows, htext]
  exact ⟨doc.previous, hparse⟩

/-- A document that loads tells whether the file is there. -/
theorem loadAffineFile_found (C : Config) (file : AffineFile) (s : Backend) :
    (loadAffineFile C file).wp touchMachine (fun x _ s' => s' = s ∧
      (∀ doc, x = .ok (some doc) → ∃ text, s.file file = some text ∧
        parseAffineDocument C.floats text file.state file.name = .ok doc) ∧
      (x = .ok none → s.file file = none)) s := by
  refine wp_mono (wp_and (loadAffineFile_spec C file s) ?_) fun x log s' h => ⟨h.1.1, h.1.2, h.2⟩
  refine Interleave.wp_perform_bind fun input answer s₁ he => ?_
  rcases exec_read he with ⟨fault, rfl, -⟩ | ⟨rfl, -⟩
  · exact wp_raise fun h => nomatch h
  · refine wp_bind (Interleave.wp_ofExcept (Q := fun x _ _ => x = _) rfl) ?_
      fun e _ _ _ h => nomatch h
    intro found _ s₂ hfound
    cases hfound
    split
    · next hnone => exact wp_pure fun _ => hnone
    · refine wp_bind (wp_path _ s₂) (fun doc _ s₃ _ => ?_) fun e _ _ _ h => nomatch h
      exact wp_pure fun h => nomatch h

/-- A calibration that is reported is the one of the state. -/
theorem touchCalibrationGet_shows (C : Config) (s : Backend) :
    (touchCalibrationGet C).wp touchMachine (fun x _ _ => ∀ current, x = .ok current →
      Shows C s current.revision current.matrix) s := by
  refine wp_bind (loadAffineFile_found C .persistent s) ?_ fun e _ _ _ _ h => nomatch h
  rintro persistent _ s₀ ⟨rfl, hpersistent, hunprovisioned⟩
  refine wp_bind (loadAffineFile_found C .effective s₀) ?_ fun e _ _ _ _ h => nomatch h
  rintro effective _ s₁ ⟨rfl, heffective, hstopped⟩
  refine wp_bind (basisSnapshot_readOnly.wp s₁) (fun basis _ s₂ _ => ?_) fun e _ _ _ _ h =>
    nomatch h
  refine wp_bind ((effectiveApplied_readOnly C effective).wp s₂) (fun applied _ s₃ _ => ?_)
    fun e _ _ _ _ h => nomatch h
  refine wp_pure fun current h => ?_
  cases h
  cases effective with
  | some doc =>
    obtain ⟨text, htext, hparse⟩ := heffective doc rfl
    exact EffectiveIs.shows ⟨text, htext, hparse⟩
  | none =>
    have hnone : s₁.effective = none := hstopped rfl
    rw [Shows, hnone]
    cases persistent with
    | some doc =>
      obtain ⟨text, htext, hparse⟩ := hpersistent doc rfl
      have htext : s₁.persistent = some text := htext
      rw [htext]
      exact ⟨doc.previous, hparse⟩
    | none =>
      have hnone' : s₁.persistent = none := hunprovisioned rfl
      rw [hnone']
      exact ⟨rfl, rfl⟩

/-- What the program of a call ensures holds of its event. -/
theorem TouchEvent.Happens.ensures {C : Config} {e : TouchEvent}
    {Q : Except PyError Unit → TouchLog → Backend → Prop} (h : e.Happens C)
    (hspec : (program C e.call).wp touchMachine Q e.before) : Q e.result e.log e.after := by
  obtain ⟨-, ω, ω', hrun, hlog⟩ := h
  have := wp_of_run hspec hrun
  rwa [hlog] at this

/-- The answer that a call computes before it drops it. -/
theorem TouchEvent.Happens.answer {C : Config} {e : TouchEvent} {α : Type} {p : TouchM α}
    {Q : Except PyError α → TouchLog → Backend → Prop} (h : e.Happens C)
    (hprogram : program C e.call = (do let _ ← p)) (hspec : p.wp touchMachine Q e.before) :
    ∃ x, Q x e.log e.after ∧ x.map (fun _ => ()) = e.result := by
  refine h.ensures (Q := fun y log s' => ∃ x, Q x log s' ∧ x.map (fun _ => ()) = y) ?_
  rw [hprogram]
  refine wp_bind hspec (fun a log s' hQ => wp_pure ⟨.ok a, ?_, rfl⟩)
    fun error log s' hQ => ⟨.error error, hQ, rfl⟩
  rwa [List.append_nil]

theorem Reports.shows {C : Config} {e : TouchEvent} {current : Calibration}
    (h : Reports C e current)
    (he : e.Happens C) : Shows C e.before current.revision current.matrix := by
  have hprogram : program C e.call = (do let _ ← touchCalibrationGet C) := by rw [h.1, program]
  obtain ⟨x, ⟨hpath, hshows⟩, -⟩ := he.answer hprogram
    (wp_and (wp_path _ e.before) (touchCalibrationGet_shows C e.before))
  exact hshows current (hpath.unique h.2)

/-- A `get` that returns has reported a calibration. -/
theorem reports_of_returned {C : Config} {e : TouchEvent} (he : e.Happens C) (hcall : e.call = .get)
    (hresult : e.result = .ok ()) : ∃ current, Reports C e current := by
  have hprogram : program C e.call = (do let _ ← touchCalibrationGet C) := by rw [hcall, program]
  obtain ⟨x, hpath, hx⟩ := he.answer hprogram (wp_path _ e.before)
  cases x with
  | error error =>
    rw [hresult] at hx
    exact nomatch hx
  | ok current => exact ⟨current, hcall, hpath⟩

/-! ## The numbers of a run -/

/-- The event takes the number for the matrix: a preview the number after the
    effective one for the matrix it is asked for, an undo the number after the
    persisted one for its undo value. -/
def Takes (C : Config) (e : TouchEvent) (revision : Nat) (m : Affine) : Prop :=
  e.result = .ok () ∧
    ((∃ request doc, e.call = .preview request ∧ requestedMatrix C request = some m ∧
        EffectiveIs C e.before doc ∧ revision = doc.revision + 1) ∨
      (∃ text doc, e.call = .undo ∧ e.before.persistent = some text ∧
        parseAffineDocument C.floats text true AffineFile.persistent.name = .ok doc ∧
        doc.previous = some m ∧ revision = doc.revision + 1))

/-- The number stands for the numbers of a matrix at the start of the run, or an
    event of the run takes it for them. -/
def Numbered (C : Config) (s : Backend) (es : List TouchEvent) (revision : Nat)
    (numbers : List (List Char)) : Prop :=
  (∃ m, Shows C s revision m ∧ numbers = formatted C.floats m) ∨
    ∃ e ∈ es, ∃ m, Takes C e revision m ∧ numbers = formatted C.floats m

/-- The effective document of a revision and a matrix reads as these. -/
def Stable (C : Config) (revision : Nat) (m : Affine) : Prop :=
  parseAffineDocument C.floats (affineEffectiveText C.floats revision m) false
    AffineFile.effective.name = .ok ⟨revision, m, none⟩

/-- No number of the run is taken for a second matrix, and what is reported at its
    start is written the way the backend writes it. -/
structure NumbersOnce (C : Config) (s : Backend) (es : List TouchEvent) : Prop where
  once : ∀ revision numbers numbers', Numbered C s es revision numbers →
    Numbered C s es revision numbers' → numbers = numbers'
  stable : ∀ revision m, Shows C s revision m → Stable C revision m

/-- A preview or an undo that raises has left the state as it was. -/
def TouchEvent.Whole (e : TouchEvent) : Prop :=
  (∃ request, e.call = .preview request) ∨ e.call = .undo → e.result = .ok () ∨ e.after = e.before

/-- What is read of a document the backend has written is stable. -/
theorem stable_of_written {C : Config} {revision : Nat} {m : Affine} {doc : AffineDocument}
    (h : revision ≤ maxAffineRevision)
    (hdoc : parseAffineDocument C.floats (affineEffectiveText C.floats revision m) false
      AffineFile.effective.name = .ok doc) :
    doc.revision = revision ∧ formatted C.floats doc.matrix = formatted C.floats m ∧
      Stable C doc.revision doc.matrix := by
  obtain ⟨hrevision, hmatrix, hprevious⟩ := parseAffineDocument_effectiveText h hdoc
  refine ⟨hrevision, hmatrix, ?_⟩
  rw [Stable, affineEffectiveText_congr hmatrix, hrevision, hdoc]
  obtain ⟨_, _, _⟩ := doc
  cases hrevision
  cases hprevious
  rfl

/-- Two stable matrices of one revision that are written alike are the same. -/
theorem Stable.eq {C : Config} {revision : Nat} {m m' : Affine} (h : Stable C revision m)
    (h' : Stable C revision m') (hsame : formatted C.floats m = formatted C.floats m') :
    m = m' := by
  rw [Stable, affineEffectiveText_congr hsame, h'] at h
  cases h
  rfl

/-! ## The invariant -/

/-- A revision and a matrix that may be reported. -/
def Known (C : Config) (s₀ : Backend) (es : List TouchEvent) (revision : Nat) (m : Affine) : Prop :=
  Stable C revision m ∧ Numbered C s₀ es revision (formatted C.floats m)

/-- What is reported is known, and so is what an active preview would restore. -/
structure Traced (C : Config) (s₀ : Backend) (es : List TouchEvent) (s : Backend) : Prop where
  shown : ∀ revision m, Shows C s revision m → Known C s₀ es revision m
  saved : ∀ preview, s.preview = some preview →
    Known C s₀ es preview.savedRevision preview.savedMatrix
  live : ∀ preview, s.preview = some preview → ∃ text, s.effective = some text

section Traced

variable {C : Config} {s₀ s s' : Backend} {es : List TouchEvent} {log : TouchLog}

/-- A known document that is written is reported as it is known. -/
theorem Known.shown {revision : Nat} {m : Affine} (h : Known C s₀ es revision m)
    (htext : s.effective = some (affineEffectiveText C.floats revision m)) {revision' : Nat}
    {m' : Affine} (hshows : Shows C s revision' m') : Known C s₀ es revision' m' := by
  obtain ⟨previous, hparse⟩ := hshows.effective htext
  rw [h.1] at hparse
  cases hparse
  exact h

/-- A document with a number the run takes is known when it is read. -/
theorem shown_of_taken {revision : Nat} {m : Affine} (hbound : revision ≤ maxAffineRevision)
    (hnumbered : Numbered C s₀ es revision (formatted C.floats m))
    (htext : s.effective = some (affineEffectiveText C.floats revision m)) {revision' : Nat}
    {m' : Affine} (hshows : Shows C s revision' m') : Known C s₀ es revision' m' := by
  obtain ⟨previous, hparse⟩ := hshows.effective htext
  obtain ⟨hrevision, hmatrix, hstable⟩ := stable_of_written hbound hparse
  dsimp only at hrevision hmatrix hstable
  rw [← hrevision, ← hmatrix] at hnumbered
  exact ⟨hstable, hnumbered⟩

/-- Only the watchers and the persisted document change, or the slot is emptied. -/
theorem Traced.keep (h : Traced C s₀ es s) (heffective : s'.effective = s.effective)
    (hpersistent : s.effective = none → s'.persistent = s.persistent)
    (hslot : s'.preview = s.preview ∨ s'.preview = none) : Traced C s₀ es s' := by
  have hprev : ∀ preview, s'.preview = some preview → s.preview = some preview := by
    intro preview hpreview
    rcases hslot with heq | hnone
    · rwa [heq] at hpreview
    · rw [hnone] at hpreview
      exact nomatch hpreview
  refine ⟨fun revision m hshows => h.shown revision m ?_, fun preview hp => h.saved _ (hprev _ hp),
    fun preview hp => heffective ▸ h.live _ (hprev _ hp)⟩
  cases htext : s.effective with
  | some text =>
    obtain ⟨previous, hparse⟩ := hshows.effective (heffective.trans htext)
    rw [Shows, htext]
    exact ⟨previous, hparse⟩
  | none =>
    rw [Shows, heffective, htext, hpersistent htext] at hshows
    rwa [Shows, htext]

/-- A rollback writes what the preview has saved. -/
theorem Traced.restored {preview : Preview} (h : Traced C s₀ es s)
    (hslot : s.preview = some preview) (hr : Restored C preview s log s') : Traced C s₀ es s' := by
  have hsaved := h.saved preview hslot
  have hwritten : Traced C s₀ es (s.write (preview.savedText C) .effective) :=
    ⟨fun revision m hshows => hsaved.shown rfl hshows, h.saved, fun _ _ => ⟨_, rfl⟩⟩
  cases hr with
  | failed _ => exact h
  | spoiled _ _ => exact hwritten
  | cleared =>
    exact hwritten.keep rfl (fun _ => rfl) (.inr (clear_preview_eq_none hslot _ _))

theorem Traced.settled (h : Traced C s₀ es s) (hs : Settled C s log s') : Traced C s₀ es s' := by
  rcases hs with rfl | ⟨preview, hslot, hr⟩
  · exact h
  · exact h.restored hslot hr

theorem Traced.started {request : List (Value × Value)} {draft : Draft} {started : Bool}
    (h : Traced C s₀ es s) (hs : Started C draft started s log s')
    (haccepted : Accepted C request draft.savedRevision draft.matrix)
    (hnumbered : Numbered C s₀ es draft.revision (formatted C.floats draft.matrix)) :
    Traced C s₀ es s' := by
  obtain ⟨doc, hdoc, hrevision, hmatrix⟩ := hs.saved
  have hsaved : Known C s₀ es draft.savedRevision draft.savedMatrix := by
    rw [hrevision, hmatrix]
    exact h.shown _ _ hdoc.shows
  have hbound : draft.revision ≤ maxAffineRevision := by
    rw [hs.revision]
    exact haccepted.2.2
  rw [hs.after]
  refine ⟨fun revision m hshows => shown_of_taken hbound hnumbered rfl hshows,
    fun preview hslot => ?_, fun _ _ => ⟨_, rfl⟩⟩
  simp only [Backend.setWatcher, Backend.install, Option.some.injEq] at hslot
  subst hslot
  exact hsaved

theorem Traced.undone {revision : Nat} {m previous : Affine}
    (hu : Undone C revision m previous s s')
    (hnumbered : Numbered C s₀ es (revision + 1) (formatted C.floats previous)) :
    Traced C s₀ es s' := by
  have hnone : s'.preview = none := by
    rw [hu.after, Backend.write_preview, Backend.write_preview, hu.empty]
  have htext : s'.effective = some (affineEffectiveText C.floats (revision + 1) previous) := by
    rw [hu.after]
    rfl
  refine ⟨fun revision' m' hshows => shown_of_taken (Nat.succ_le_of_lt hu.bound) hnumbered
    htext hshows, fun preview hslot => ?_, fun preview hslot => ?_⟩
  · rw [hnone] at hslot
    exact nomatch hslot
  · rw [hnone] at hslot
    exact nomatch hslot

theorem Traced.confirmed {token : Value} {preview : Preview} (h : Traced C s₀ es s)
    (hc : Confirmed C token preview s log s') : Traced C s₀ es s' := by
  obtain ⟨text, htext⟩ := h.live preview hc.active
  rw [hc.after]
  refine h.keep rfl (fun hnone => ?_) (.inr (clear_preview_eq_none hc.active _ _))
  rw [htext] at hnone
  exact nomatch hnone

theorem Traced.watched {id : Nat} (h : Traced C s₀ es s) (hw : Watches C id s log s') :
    Traced C s₀ es s' := by
  cases hw with
  | waits => exact h
  | ends _ _ _ => exact h.keep rfl (fun _ => rfl) (.inl rfl)
  | rollsBack preview mid hslot hr =>
    exact (h.restored hslot hr).keep rfl (fun _ => rfl) (.inl rfl)

end Traced

/-- A preview that returns has started from the effective document. -/
theorem TouchEvent.Happens.previewed {C : Config} {e : TouchEvent} {request : List (Value × Value)}
    (h : e.Happens C) (hcall : e.call = .preview request) (hresult : e.result = .ok ()) :
    ∃ draft started, Started C draft started e.before e.log e.after ∧
      Accepted C request draft.savedRevision draft.matrix := by
  have hprogram : program C e.call = (do let _ ← touchCalibrationPreview C request) := by
    rw [hcall, program]
  obtain ⟨x, hx, hanswer⟩ := h.answer hprogram (touchCalibrationPreview_spec C request e.before)
  rcases hx with ⟨⟨error, rfl⟩, -⟩ | hstarted
  · rw [hresult] at hanswer
    exact nomatch hanswer
  · exact hstarted

/-- A preview that returns takes the number of its draft. -/
theorem takes_of_started {C : Config} {e : TouchEvent} {request : List (Value × Value)}
    {draft : Draft}
    {started : Bool} (hcall : e.call = .preview request) (hresult : e.result = .ok ())
    (hs : Started C draft started e.before e.log e.after)
    (haccepted : Accepted C request draft.savedRevision draft.matrix) :
    Takes C e draft.revision draft.matrix := by
  obtain ⟨doc, hdoc, hrevision, -⟩ := hs.saved
  exact ⟨hresult, .inl ⟨request, doc, hcall, haccepted.1, hdoc, hrevision ▸ hs.revision⟩⟩

/-- One call of a run keeps every report traced. -/
theorem Traced.step {C : Config} {s₀ : Backend} {es : List TouchEvent} {e : TouchEvent}
    (h : Traced C s₀ es e.before) (hmem : e ∈ es) (he : e.Happens C) (hcall : e.call ≠ .recover)
    (hwhole : e.Whole) : Traced C s₀ es e.after := by
  cases hc : e.call with
  | recover => exact absurd hc hcall
  | get =>
    have hprogram : program C e.call = (do let _ ← touchCalibrationGet C) := by rw [hc, program]
    obtain ⟨x, hafter, -⟩ := he.answer hprogram ((touchCalibrationGet_readOnly C).wp e.before)
    rwa [hafter]
  | preview request =>
    -- A preview that started reports the matrix that was asked for.
    rcases hwhole (.inl ⟨request, hc⟩) with hresult | hafter
    · obtain ⟨draft, started, hs, haccepted⟩ := he.previewed hc hresult
      exact h.started hs haccepted
        (.inr ⟨e, hmem, _, takes_of_started hc hresult hs haccepted, rfl⟩)
    · rwa [hafter]
  | confirm token =>
    have hprogram : program C e.call = (do let _ ← touchCalibrationConfirm C token) := by
      rw [hc, program]
    obtain ⟨x, hx, -⟩ := he.answer hprogram (touchCalibrationConfirm_spec C token e.before)
    rcases hx with ⟨preview, hconfirmed⟩ | ⟨-, hsettled⟩
    · exact h.confirmed hconfirmed
    · exact h.settled hsettled
  | cancel token =>
    have hprogram : program C e.call = (do let _ ← touchCalibrationCancel C token) := by
      rw [hc, program]
    obtain ⟨x, hsettled, -⟩ := he.answer hprogram (touchCalibrationCancel_spec C token e.before)
    exact h.settled hsettled
  | undo =>
    have hprogram : program C e.call = (do let _ ← touchCalibrationUndo C) := by rw [hc, program]
    obtain ⟨x, hx, hanswer⟩ := he.answer hprogram (touchCalibrationUndo_spec C e.before)
    rcases hwhole (.inr hc) with hresult | hafter
    -- An undo that answered reports the matrix of the file it read.
    · rcases hx with ⟨⟨error, rfl⟩, -⟩ | ⟨revision, m, previous, hu⟩
      · rw [hresult] at hanswer
        exact nomatch hanswer
      · obtain ⟨text, htext, hparse⟩ := hu.read
        exact .undone hu (.inr ⟨e, hmem, previous,
          ⟨hresult, .inr ⟨text, _, hc, htext, hparse, rfl, rfl⟩⟩, rfl⟩)
    · rwa [hafter]
  | setState changes =>
    refine h.settled (he.ensures (Q := fun _ log s' => Settled C e.before log s') ?_)
    rw [hc]
    exact setState_spec C changes e.before
  | watch id =>
    refine h.watched (he.ensures (Q := fun _ log s' => Watches C id e.before log s') ?_)
    rw [hc]
    exact previewWatch_spec C id e.before
  | close =>
    refine h.settled (he.ensures (Q := fun _ log s' => Settled C e.before log s') ?_)
    rw [hc]
    exact close_spec C e.before

/-! ## One revision, one matrix -/

/-- Two reports of one revision agree. -/
def ReportsAgree (C : Config) (es : List TouchEvent) : Prop :=
  ∀ e ∈ es, ∀ e' ∈ es, ∀ current current', Reports C e current → Reports C e' current' →
    current.revision = current'.revision → current.matrix = current'.matrix

/-- An accepted preview starts from the matrix that was reported under the revision
    it expects. -/
def PreviewsFromReport (C : Config) (es : List TouchEvent) : Prop :=
  ∀ e ∈ es, ∀ e' ∈ es, ∀ current request, Reports C e current → e'.call = .preview request →
    e'.result = .ok () → expectedRevision request = .ok (current.revision : Int) →
    ∃ draft started, Started C draft started e'.before e'.log e'.after ∧
      draft.savedRevision = current.revision ∧ draft.savedMatrix = current.matrix

/-- In a run whose previews and undos take no number for a second matrix, a revision
    identifies the matrix. -/
theorem revision_identifies_matrix (C : Config) {s s' : Backend} {es : List TouchEvent}
    (hs : s.Fresh)
    (h : TouchRun C s es s') (hcalls : ∀ e ∈ es, e.call ≠ .recover) (hwhole : ∀ e ∈ es, e.Whole)
    (honce : NumbersOnce C s es) : ReportsAgree C es ∧ PreviewsFromReport C es := by
  have hstart : Traced C s es s := by
    refine ⟨fun revision m hshows => ⟨honce.stable _ _ hshows, .inl ⟨m, hshows, rfl⟩⟩,
      fun preview hslot => ?_, fun preview hslot => ?_⟩
    · rw [hs.1] at hslot
      exact nomatch hslot
    · rw [hs.1] at hslot
      exact nomatch hslot
  have hstep : ∀ e : TouchEvent, e.Happens C → e ∈ es ∧ e.call ≠ .recover ∧ e.Whole →
      Traced C s es e.before → Traced C s es e.after :=
    fun e he hA hb => hb.step hA.1 he hA.2.1 hA.2.2
  obtain ⟨-, hall⟩ := h.invariant hstep hstart fun e he => ⟨he, hcalls e he, hwhole e he⟩
  have hagree : ∀ {revision m m'}, Known C s es revision m → Known C s es revision m' → m = m' :=
    fun hm hm' => hm.1.eq hm'.1 (honce.once _ _ _ hm.2 hm'.2)
  have hreport : ∀ e ∈ es, ∀ current, Reports C e current →
      Known C s es current.revision current.matrix :=
    fun e he current hr => (hall e he).1.shown _ _ (hr.shows (h.happens e he))
  refine ⟨fun e he e' he' current current' hr hr' hrevision => ?_,
    fun e he e' he' current request hr hcall hresult hexpected => ?_⟩
  · have hknown' := hreport e' he' current' hr'
    rw [← hrevision] at hknown'
    exact hagree (hreport e he current hr) hknown'
  · obtain ⟨draft, started, hstarted, haccepted⟩ := (h.happens e' he').previewed hcall hresult
    have hrevision : draft.savedRevision = current.revision := by
      have := haccepted.2.1
      rw [hexpected, Except.ok.injEq] at this
      exact Int.ofNat_inj.mp this.symm
    obtain ⟨doc, hdoc, hsaved, hmatrix⟩ := hstarted.saved
    have hknown := (hall e' he').1.shown _ _ hdoc.shows
    rw [← hsaved, ← hmatrix, hrevision] at hknown
    exact ⟨draft, started, hstarted, hrevision, hagree hknown (hreport e he current hr)⟩

namespace Sample

/-- Read the calibration. -/
def get : Call × (Nat → (o : TouchOp) → o.Env) := (.get, fun _ => env (receipt 1 half) 0 true)

/-- Cancel; the provider applies the saved matrix. -/
def cancel : Call × (Nat → (o : TouchOp) → o.Env) :=
  (.cancel token, fun _ => env (receipt 0 identityAffine) 0 true)

/-- Preview the default matrix. The runtime write is the ninth step. -/
def previewDefault : Call × (Nat → (o : TouchOp) → o.Env) :=
  (.preview [(.str "use_default", .bool true), (.str "ttl_ms", .int 1000),
      (.str "expected_revision", .int 0)],
    fun n => if n < 8 then env (receipt 0 identityAffine) 0 true
      else env (receipt 1 identityAffine) 0 true)

/-- A `get` that returns while the effective document is the given one. -/
def reads (revision : Nat) (m : Affine) (e : TouchEvent) : Bool :=
  match e.call, e.result with
  | .get, .ok _ => e.before.effective == some (affineEffectiveText floats revision m)
  | _, _ => false

theorem of_reads {revision : Nat} {m : Affine} {e : TouchEvent} (h : reads revision m e = true) :
    e.call = .get ∧ e.result = .ok () ∧
      e.before.effective = some (affineEffectiveText floats revision m) := by
  unfold reads at h
  split at h
  · next hcall hresult => exact ⟨hcall, hresult, beq_iff_eq.mp h⟩
  · exact nomatch h

/-- What is reported while the effective document is one that reads as it was
    written. -/
theorem reports_of_reads {revision : Nat} {m : Affine} {e : TouchEvent}
    (hstable : (parseAffineDocument floats (affineEffectiveText floats revision m) false
      AffineFile.effective.name).toOption = some ⟨revision, m, none⟩)
    (he : e.Happens config) (h : reads revision m e = true) :
    ∃ current, Reports config e current ∧ current.revision = revision ∧ current.matrix = m := by
  obtain ⟨hcall, hresult, htext⟩ := of_reads h
  obtain ⟨current, hreports⟩ := reports_of_returned he hcall hresult
  obtain ⟨previous, hparse⟩ := (hreports.shows he).effective htext
  have hparse : parseAffineDocument floats (affineEffectiveText floats revision m) false
      AffineFile.effective.name = .ok ⟨current.revision, current.matrix, previous⟩ := hparse
  rw [hparse] at hstable
  cases hstable
  exact ⟨current, hreports, rfl, rfl⟩

end Sample

/-- Two clients preview different matrices, one after the other has cancelled: both
    are reported as revision 1. -/
theorem revision_reused : ∃ s es s', s.Fresh ∧ TouchRun Sample.config s es s' ∧
    (∀ e ∈ es, e.call ≠ .recover ∧ e.result = .ok ()) ∧ ¬ReportsAgree Sample.config es := by
  have htest : (replay Sample.config [Sample.preview, Sample.get, Sample.cancel,
      Sample.previewDefault, Sample.get] Sample.initial).any (fun p =>
        p.1.all (fun e => e.result.toBool && match e.call with | .recover => false | _ => true) &&
        p.1.any (Sample.reads 1 Sample.half) && p.1.any (Sample.reads 1 identityAffine)) =
          true := by
    decide +kernel
  have hne : Sample.half ≠ identityAffine := by decide +kernel
  obtain ⟨⟨es, s'⟩, hreplay, htest⟩ := (Option.any_eq_true _ _).mp htest
  simp only [Bool.and_eq_true, List.all_eq_true, List.any_eq_true] at htest
  obtain ⟨⟨hall, e, he, hreads⟩, e', he', hreads'⟩ := htest
  have hrun := touchRun_of_replay (by simp [Sample.preview, Sample.get, Sample.cancel,
    Sample.previewDefault]) hreplay
  refine ⟨Sample.initial, es, s', Sample.initial_fresh, hrun, fun x hx => ⟨fun hcall => ?_, ?_⟩,
    fun hagree => ?_⟩
  · have := (hall x hx).2
    rw [hcall] at this
    cases this
  · have := (hall x hx).1
    cases hresult : x.result with
    | ok _ => rfl
    | error error =>
      rw [hresult] at this
      cases this
  · obtain ⟨current, hr, hrevision, hmatrix⟩ := Sample.reports_of_reads (by decide +kernel)
      (hrun.happens e he) hreads
    obtain ⟨current', hr', hrevision', hmatrix'⟩ := Sample.reports_of_reads (by decide +kernel)
      (hrun.happens e' he') hreads'
    have := hagree e he e' he' current current' hr hr' (hrevision.trans hrevision'.symm)
    exact hne (hmatrix.symm.trans (this.trans hmatrix'))

namespace Sample

/-- The event takes no number but 1, for `half`. -/
def takesHalf (e : TouchEvent) : Bool :=
  match e.call with
  | .preview request => requestedMatrix config request == some half &&
    e.before.effective == some (affineEffectiveText floats 0 identityAffine)
  | .undo | .recover => false
  | _ => true

private theorem stable_initial : parseAffineDocument floats
    (affineEffectiveText floats 0 identityAffine) false AffineFile.effective.name =
      .ok ⟨0, identityAffine, none⟩ := by
  have h : (parseAffineDocument floats (affineEffectiveText floats 0 identityAffine) false
      AffineFile.effective.name).toOption = some ⟨0, identityAffine, none⟩ := by decide +kernel
  cases hparse : parseAffineDocument floats (affineEffectiveText floats 0 identityAffine) false
      AffineFile.effective.name with
  | error error =>
    rw [hparse] at h
    exact nomatch h
  | ok doc =>
    rw [hparse] at h
    cases h
    rfl

theorem takes_of_takesHalf {e : TouchEvent} (h : takesHalf e = true) {revision : Nat} {m : Affine}
    (htakes : Takes config e revision m) : revision = 1 ∧ m = half := by
  rcases htakes with ⟨-, ⟨request, doc, hcall, hm, ⟨text, htext, hparse⟩, hrevision⟩ |
    ⟨text, doc, hcall, -⟩⟩
  · simp only [takesHalf, hcall, Bool.and_eq_true, beq_iff_eq] at h
    rw [h.2, Option.some.injEq] at htext
    subst htext
    have hdoc := stable_initial.symm.trans hparse
    cases hdoc
    rw [h.1, Option.some.injEq] at hm
    exact ⟨hrevision, hm.symm⟩
  · rw [takesHalf, hcall] at h
    exact nomatch h

theorem numbersOnce {es : List TouchEvent} (h : ∀ e ∈ es, takesHalf e = true) :
    NumbersOnce config initial es := by
  have hshows : ∀ {revision m}, Shows config initial revision m →
      revision = 0 ∧ m = identityAffine := by
    intro revision m hshows
    obtain ⟨previous, hparse⟩ := hshows.effective rfl
    have hdoc := stable_initial.symm.trans hparse
    cases hdoc
    exact ⟨rfl, rfl⟩
  have hnumbered : ∀ {revision numbers}, Numbered config initial es revision numbers →
      (revision = 0 ∧ numbers = formatted floats identityAffine) ∨
        (revision = 1 ∧ numbers = formatted floats half) := by
    rintro revision numbers (⟨m, hm, rfl⟩ | ⟨e, he, m, htakes, rfl⟩)
    · obtain ⟨rfl, rfl⟩ := hshows hm
      exact .inl ⟨rfl, rfl⟩
    · obtain ⟨rfl, rfl⟩ := takes_of_takesHalf (h e he) htakes
      exact .inr ⟨rfl, rfl⟩
  refine ⟨fun revision numbers numbers' hn hn' => ?_, fun revision m hm => ?_⟩
  · rcases hnumbered hn with ⟨hr, rfl⟩ | ⟨hr, rfl⟩ <;> rcases hnumbered
      hn' with ⟨hr', rfl⟩ | ⟨hr', rfl⟩
    · rfl
    · exact absurd (hr.symm.trans hr') (by decide)
    · exact absurd (hr.symm.trans hr') (by decide)
    · rfl
  · obtain ⟨rfl, rfl⟩ := hshows hm
    exact stable_initial

end Sample

/-- A preview that is cancelled and asked for again, read after each step. -/
theorem revision_identifies_matrix_again : ∃ es s', TouchRun Sample.config Sample.initial es s' ∧
    es.countP (Sample.reads 1 Sample.half) = 2 ∧ NumbersOnce Sample.config Sample.initial es ∧
    ReportsAgree Sample.config es ∧ PreviewsFromReport Sample.config es := by
  have htest :
      (replay Sample.config [Sample.get, Sample.preview, Sample.get, Sample.cancel, Sample.get,
        Sample.preview, Sample.get] Sample.initial).any (fun p =>
        p.1.countP (Sample.reads 1 Sample.half) == 2 &&
        p.1.all fun e => e.result.toBool && Sample.takesHalf e) = true := by decide +kernel
  obtain ⟨⟨es, s'⟩, hreplay, htest⟩ := (Option.any_eq_true _ _).mp htest
  simp only [Bool.and_eq_true, List.all_eq_true, beq_iff_eq] at htest
  obtain ⟨hcount, hall⟩ := htest
  have hrun := touchRun_of_replay (by simp [Sample.preview, Sample.get, Sample.cancel]) hreplay
  have honce := Sample.numbersOnce fun e he => (hall e he).2
  have hcalls : ∀ e ∈ es, e.call ≠ .recover := by
    intro e he hcall
    have := (hall e he).2
    rw [Sample.takesHalf, hcall] at this
    cases this
  have hwhole : ∀ e ∈ es, e.Whole := by
    intro e he _
    have := (hall e he).1
    cases hresult : e.result with
    | ok _ => exact .inl rfl
    | error error =>
      rw [hresult] at this
      cases this
  exact ⟨es, s', hrun, hcount, honce,
    revision_identifies_matrix Sample.config Sample.initial_fresh hrun
    hcalls hwhole honce⟩

end MsysHal.Ch347

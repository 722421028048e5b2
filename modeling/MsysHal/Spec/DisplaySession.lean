import MsysHal.ForStd.Except
import MsysHal.ForStd.JsonMachine
import MsysHal.ForStd.Text
import MsysHal.Python.DisplaySession
import MsysHal.Python.ExactFloats

/-!
# Bad candidates of a display session

`DisplaySessionReader.load` goes through its state files and keeps the fresh ones. A
file that is missing, stale, damaged or of another shape is skipped: the loop catches
`OSError`, `UnavailableError` and `ValueError`. Two exceptions are none of these, the
`RecursionError` of `json.loads` and the `OverflowError` of `float()`, and end the whole
search.

## Key results

- `validateDisplaySession_error`: what the validation of a document raises
- `readDocument_error`: what reading a state file raises
- `good_session_found`: the newest fresh session is returned if and only if no file
  makes the reader raise one of the two
-/

namespace MsysHal

open Python (Value Runtime PyFloat ReachesTooDeep)
open Ch347 (Floats)

/-! ## Numbers that are too large -/

/-- The `OverflowError` of `float()`. -/
def overflowError : PyError := .exc "OverflowError" "int too large to convert to float"

/-- A number that is accepted in a matrix. -/
def SafeNumber (F : Floats) : Value → Prop
  | .int n => ∃ x, F.ofInt n = some x ∧ |x| ≤ 16
  | .float (.finite x _) => |x| ≤ 16
  | .float .nonFinite | .null | .bool _ | .str _ | .lone _ | .list _ | .dict _ | .other => False

/-- Nine items with an integer among them that is too large for a `float`, and only
    accepted numbers before it. -/
def OverflowsAt (F : Floats) (items : List Value) : Prop :=
  items.length = 9 ∧ ∃ before n after, items = before ++ .int n :: after ∧
    (∀ item ∈ before, SafeNumber F item) ∧ F.ofInt n = none

theorem matrixNumber_ok_iff (F : Floats) (label : String) (item : Value) :
    (∃ x, matrixNumber F label item = .ok x) ↔ SafeNumber F item := by
  cases item with
  | int n =>
    simp only [matrixNumber, SafeNumber]
    cases hn : F.ofInt n with
    | none => simp [throw, throwThe, MonadExceptOf.throw, bind, Except.bind]
    | some x =>
      by_cases hx : 16 < |x|
      · simp [pure, Except.pure, bind, Except.bind, throw, throwThe, MonadExceptOf.throw, hx]
      · simp [pure, Except.pure, bind, Except.bind, hx, not_lt.mp hx]
  | float f =>
    cases f with
    | nonFinite => simp [matrixNumber, SafeNumber, pure, Except.pure, bind, Except.bind, throw,
        throwThe, MonadExceptOf.throw]
    | finite x r =>
      simp only [matrixNumber, SafeNumber]
      by_cases hx : 16 < |x|
      · simp [pure, Except.pure, bind, Except.bind, throw, throwThe, MonadExceptOf.throw, hx]
      · simp [pure, Except.pure, bind, Except.bind, hx, not_lt.mp hx]
  | null | bool _ | str _ | lone _ | list _ | dict _ | other =>
    simp [matrixNumber, SafeNumber, throw, throwThe, MonadExceptOf.throw, bind, Except.bind]

theorem matrixNumber_error {F : Floats} {label : String} {item : Value} {e : PyError}
    (h : matrixNumber F label item = .error e) :
    (∃ text, e = valueError text) ∨ e = overflowError ∧ ∃ n, item = .int n ∧ F.ofInt n = none := by
  cases item with
  | int n =>
    simp only [matrixNumber] at h
    cases hn : F.ofInt n with
    | none =>
      rw [hn] at h
      exact .inr ⟨(Except.error.inj h).symm, n, rfl, hn⟩
    | some x =>
      rw [hn] at h
      change (if 16 < |x| then throw _ else pure x) = _ at h
      split at h
      · exact .inl ⟨_, (Except.error.inj h).symm⟩
      · exact nomatch h
  | float f =>
    cases f with
    | nonFinite => exact .inl ⟨_, (Except.error.inj h).symm⟩
    | finite x r =>
      change (if 16 < |x| then throw _ else pure x) = _ at h
      split at h
      · exact .inl ⟨_, (Except.error.inj h).symm⟩
      · exact nomatch h
  | null | bool _ | str _ | lone _ | list _ | dict _ | other =>
    exact .inl ⟨_, (Except.error.inj h).symm⟩

/-- What `normalized_matrix` raises. -/
theorem normalizedMatrix_error {F : Floats} {value : Value} {label : String} {e : PyError}
    (h : normalizedMatrix F value label = .error e) :
    (∃ text, e = valueError text) ∨
      e = overflowError ∧ ∃ items, value = .list items ∧ OverflowsAt F items := by
  unfold normalizedMatrix at h
  split at h
  · next items =>
    split at h
    · exact .inl ⟨_, (Except.error.inj h).symm⟩
    · next hlen =>
      rw [Except.bind_eq_error_iff] at h
      cases h with
      | inl h =>
        obtain ⟨before, item, after, hitems, hbefore, hitem⟩ := List.mapM_eq_error_iff.mp h
        cases matrixNumber_error hitem with
        | inl hvalue => exact .inl hvalue
        | inr hover =>
          obtain ⟨he, n, rfl, hn⟩ := hover
          exact .inr ⟨he, items, rfl, not_not.mp hlen, before, n, after, hitems,
            fun item hmem => (matrixNumber_ok_iff F label item).mp (hbefore item hmem), hn⟩
      | inr h =>
        obtain ⟨matrix, -, h⟩ := h
        simp only at h
        split at h
        · exact .inl ⟨_, (Except.error.inj h).symm⟩
        · exact nomatch h
  · exact .inl ⟨_, (Except.error.inj h).symm⟩

/-- `normalized_matrix` passes an `OverflowError` on. -/
theorem normalizedMatrix_overflows {F : Floats} {items : List Value} (label : String)
    (h : OverflowsAt F items) : normalizedMatrix F (.list items) label = .error overflowError := by
  obtain ⟨hlen, before, n, after, hitems, hbefore, hn⟩ := h
  have hmap : items.mapM (matrixNumber F label) = .error overflowError := by
    apply List.mapM_eq_error_iff.mpr
    refine ⟨before, .int n, after, hitems, ?_, ?_⟩
    · intro item hmem
      exact (matrixNumber_ok_iff F label item).mpr (hbefore item hmem)
    · simp only [matrixNumber, hn]
      rfl
  simp only [normalizedMatrix]
  rw [if_neg (not_not.mpr hlen), hmap]
  rfl

/-! ## Documents that get to their matrix -/

/-- `members.get(name)`. -/
def fieldOf (members : List (Value × Value)) (name : String) : Value :=
  (Value.lookup name members).getD .null

/-- The fields of an enabled transform are accepted, up to its matrix. -/
structure TransformHead (members : List (Value × Value)) : Prop where
  names : hasExactly ["enabled", "mode", "device", "space", "matrix", "source", "verified"]
    members = true
  enabled : fieldOf members "enabled" = .bool true
  mode : shortText 128 (fieldOf members "mode") = true
  source : shortText 128 (fieldOf members "source") = true
  device : fieldOf members "device" = .null ∨ shortText 256 (fieldOf members "device") = true
  space : fieldOf members "space" = .str "normalized-display"
  verified : fieldOf members "verified" = .bool true

/-- The fields of a document are accepted, up to its transform. -/
structure SessionHead (members : List (Value × Value)) : Prop where
  schema : (fieldOf members "schema").isKey "msys.display-session.v1" = true
  names : hasExactly ["schema", "state", "provider", "generation", "display", "geometry",
    "input_transform", "observed_at_unix_ms"] members = true
  state : (fieldOf members "state").isKey "ready" = true
  provider : shortText 256 (fieldOf members "provider") = true
  generation : ∃ n, fieldOf members "generation" = .int n ∧ 0 ≤ n
  display : ∃ s, fieldOf members "display" = .str s ∧ matchesDisplay s = true
  geometry : checkGeometry (fieldOf members "geometry") = .ok ()

/-- A document that is accepted up to its matrix, with an integer there that is too large. -/
def Overflows (F : Floats) (document : Value) : Prop :=
  ∃ members transform items, document = .dict members ∧ SessionHead members ∧
    fieldOf members "input_transform" = .dict transform ∧ TransformHead transform ∧
    fieldOf transform "matrix" = .list items ∧ OverflowsAt F items

theorem textOf_error {n : Nat} {message : String} {value : Value} {e : PyError}
    (h : textOf n message value = .error e) : e = valueError message := by
  unfold textOf at h
  split at h
  · exact nomatch h
  · exact (Except.error.inj h).symm

theorem textOf_ok {n : Nat} {message : String} {value : Value}
    {v : { v : Value // shortText n v = true }}
    (h : textOf n message value = .ok v) : shortText n value = true := by
  unfold textOf at h
  split at h
  · next hs => exact hs
  · exact nomatch h

theorem transformDevice_error {value : Value} {e : PyError} (h : transformDevice value = .error e) :
    ∃ text, e = valueError text := by
  unfold transformDevice at h
  split at h
  · exact nomatch h
  · split at h
    · exact nomatch h
    · exact ⟨_, (Except.error.inj h).symm⟩

theorem transformDevice_ok {value : Value}
    {v : { v : Value // v = .null ∨ shortText 256 v = true }} (h : transformDevice value = .ok v) :
    value = .null ∨ shortText 256 value = true := by
  unfold transformDevice at h
  split at h
  · exact .inl rfl
  · split at h
    · next hs => exact .inr hs
    · exact nomatch h

theorem naturalOf_error {message : String} {value : Value} {e : PyError}
    (h : naturalOf message value = .error e) : e = valueError message := by
  unfold naturalOf at h
  split at h
  · split at h
    · exact nomatch h
    · exact (Except.error.inj h).symm
  · exact (Except.error.inj h).symm

theorem naturalOf_ok {message : String} {value : Value} {n : { n : Int // 0 ≤ n }}
    (h : naturalOf message value = .ok n) : value = .int n.1 := by
  unfold naturalOf at h
  split at h
  · split at h
    · obtain rfl := Except.ok.inj h
      rfl
    · exact nomatch h
  · exact nomatch h

theorem displayOf_error {value : Value} {e : PyError} (h : displayOf value = .error e) :
    ∃ text, e = valueError text := by
  unfold displayOf at h
  split at h
  · split at h
    · cases h
    · exact ⟨_, (Except.error.inj h).symm⟩
  · exact ⟨_, (Except.error.inj h).symm⟩

theorem displayOf_ok {value : Value} {v : { s : String // matchesDisplay s = true }}
    (h : displayOf value = .ok v) : ∃ s, value = .str s ∧ matchesDisplay s = true := by
  unfold displayOf at h
  split at h
  · next s =>
    split at h
    · next hs => exact ⟨s, rfl, hs⟩
    · cases h
  · cases h

private theorem ranges_error {e : PyError} (ranges : List (String × Int × Int))
    (members : List (Value × Value)) (h : (ranges.forM fun range =>
      match Value.lookup range.1 members with
      | some (.int n) =>
        if range.2.1 ≤ n ∧ n ≤ range.2.2 then Except.ok ()
        else .error (valueError s!"display session geometry.{range.1} is invalid")
      | _ => .error (valueError s!"display session geometry.{range.1} is invalid")) = .error e) :
    ∃ text, e = valueError text := by
  induction ranges with
  | nil => cases h
  | cons range ranges ih =>
    rw [List.forM, Except.bind_eq_error_iff] at h
    cases h with
    | inr h => exact ih h.choose_spec.2
    | inl h =>
      split at h
      · split at h
        · cases h
        · exact ⟨_, (Except.error.inj h).symm⟩
      · exact ⟨_, (Except.error.inj h).symm⟩

theorem checkGeometry_error {value : Value} {e : PyError} (h : checkGeometry value = .error e) :
    ∃ text, e = valueError text := by
  unfold checkGeometry at h
  split at h
  · next members =>
    simp only at h
    split at h
    · exact ⟨_, (Except.error.inj h).symm⟩
    · exact ranges_error _ members h
  · exact ⟨_, (Except.error.inj h).symm⟩

theorem geometryOf_error {value : Value} {e : PyError} (h : geometryOf value = .error e) :
    ∃ text, e = valueError text := by
  unfold geometryOf at h
  split at h
  · exact nomatch h
  · next hcheck =>
    cases Except.error.inj h
    exact checkGeometry_error hcheck

theorem geometryOf_ok_iff {value : Value} :
    (∃ v, geometryOf value = .ok v) ↔ checkGeometry value = .ok () := by
  unfold geometryOf
  split
  · next hcheck => exact ⟨fun _ => hcheck, fun _ => ⟨_, rfl⟩⟩
  · next e hcheck =>
    constructor
    · rintro ⟨v, hv⟩
      cases hv
    · intro hok
      rw [hok] at hcheck
      cases hcheck

/-- What the check of a matrix raises. -/
theorem transformMatrix_error {F : Floats} {enabled : Bool} {value : Value} {e : PyError}
    (h : transformMatrix F enabled value = .error e) :
    (∃ text, e = valueError text) ∨ e = overflowError ∧ enabled = true ∧
      ∃ items, value = .list items ∧ OverflowsAt F items := by
  unfold transformMatrix at h
  split at h
  · rw [Except.bind_eq_error_iff] at h
    cases h with
    | inr h => exact nomatch h.choose_spec.2
    | inl h =>
      cases normalizedMatrix_error h with
      | inl hvalue => exact .inl hvalue
      | inr hover => exact .inr ⟨hover.1, rfl, hover.2⟩
  · exact nomatch h
  · exact .inl ⟨_, (Except.error.inj h).symm⟩

/-- What the check of a transform raises. -/
theorem checkTransform_error {F : Floats} {value : Value} {e : PyError}
    (h : checkTransform F value = .error e) :
    (∃ text, e = valueError text) ∨ e = overflowError ∧ ∃ members items, value = .dict members ∧
      TransformHead members ∧ fieldOf members "matrix" = .list items ∧ OverflowsAt F items := by
  unfold checkTransform at h
  split at h
  · next members =>
    simp only at h
    by_cases hnames : hasExactly
        ["enabled", "mode", "device", "space", "matrix", "source", "verified"] members = true
    · rw [if_neg (by simp [hnames])] at h
      split at h
      · next enabled henabled =>
        rw [pure_bind, Except.bind_eq_error_iff] at h
        cases h with
        | inl h => exact .inl ⟨_, textOf_error h⟩
        | inr h =>
        obtain ⟨mode, hmode, h⟩ := h
        rw [Except.bind_eq_error_iff] at h
        cases h with
        | inl h => exact .inl ⟨_, textOf_error h⟩
        | inr h =>
        obtain ⟨source, hsource, h⟩ := h
        rw [Except.bind_eq_error_iff] at h
        cases h with
        | inl h => exact .inl (transformDevice_error h)
        | inr h =>
        obtain ⟨device, hdevice, h⟩ := h
        -- The matrix is checked last, after all that does not overflow.
        split at h
        · next hspace hverified =>
          rw [Except.bind_eq_error_iff] at h
          cases h with
          | inr h => exact nomatch h.choose_spec.2
          | inl h =>
          cases transformMatrix_error h with
          | inl hvalue => exact .inl hvalue
          | inr hover =>
            obtain ⟨he, rfl, items, hitems, hoverflow⟩ := hover
            exact .inr ⟨he, members, items, rfl,
              ⟨hnames, henabled, textOf_ok hmode, textOf_ok hsource, transformDevice_ok hdevice,
                hspace, hverified⟩, hitems, hoverflow⟩
        · exact .inl ⟨_, (Except.error.inj h).symm⟩
      · exact .inl ⟨_, (Except.error.inj h).symm⟩
    · rw [if_pos (by simp [hnames])] at h
      exact .inl ⟨_, (Except.error.inj h).symm⟩
  · exact .inl ⟨_, (Except.error.inj h).symm⟩

/-- The check of a transform passes an `OverflowError` on. -/
theorem checkTransform_overflows {F : Floats} {members : List (Value × Value)} {items : List Value}
    (head : TransformHead members) (hmatrix : fieldOf members "matrix" = .list items)
    (h : OverflowsAt F items) : checkTransform F (.dict members) = .error overflowError := by
  have hmode : textOf 128 "display session input mode is invalid" (fieldOf members "mode") =
      .ok ⟨_, head.mode⟩ := by rw [textOf, dif_pos head.mode]
  have hsource : textOf 128 "display session input source is invalid" (fieldOf members "source") =
      .ok ⟨_, head.source⟩ := by rw [textOf, dif_pos head.source]
  have hdevice : ∃ device, transformDevice (fieldOf members "device") = .ok device := by
    unfold transformDevice
    split
    · exact ⟨_, rfl⟩
    · next hne =>
      have hshort := head.device.resolve_left hne
      exact ⟨_, by rw [dif_pos hshort]⟩
  obtain ⟨device, hdevice⟩ := hdevice
  simp only [fieldOf] at hmode hsource hdevice hmatrix
  have henabled := head.enabled
  have hspace := head.space
  have hverified := head.verified
  simp only [fieldOf] at henabled hspace hverified
  simp only [checkTransform]
  rw [if_neg (by simp [head.names]), henabled]
  simp only [pure_bind]
  rw [hmode, hsource, hdevice, hspace, hverified, hmatrix]
  simp only [transformMatrix]
  rw [normalizedMatrix_overflows _ h]
  rfl

/-- What the validation of a document raises. -/
theorem validateDisplaySession_error {F : Floats} {document : Value} {e : PyError}
    (h : validateDisplaySession F document = .error e) :
    (∃ text, e = valueError text) ∨ e = overflowError ∧ Overflows F document := by
  unfold validateDisplaySession at h
  split at h
  · next members =>
    -- The checks stand in the order of the source; each one that fails ends its case.
    simp only at h
    by_cases hschema : (fieldOf members "schema").isKey "msys.display-session.v1" = true
    swap
    · simp only [fieldOf] at hschema
      rw [if_pos (by simp [hschema])] at h
      exact .inl ⟨_, (Except.error.inj h).symm⟩
    by_cases hnames : hasExactly ["schema", "state", "provider", "generation", "display",
        "geometry", "input_transform", "observed_at_unix_ms"] members = true
    swap
    · rw [if_neg (by simpa [fieldOf] using hschema), if_pos (by simp [hnames])] at h
      exact .inl ⟨_, (Except.error.inj h).symm⟩
    by_cases hstate : (fieldOf members "state").isKey "ready" = true
    swap
    · rw [if_neg (by simpa [fieldOf] using hschema), if_neg (by simp [hnames]),
        if_pos (by simpa [fieldOf] using hstate)] at h
      exact .inl ⟨_, (Except.error.inj h).symm⟩
    rw [if_neg (by simpa [fieldOf] using hschema), if_neg (by simp [hnames]),
      if_neg (by simpa [fieldOf] using hstate), Except.bind_eq_error_iff] at h
    cases h with
    | inl h => exact .inl ⟨_, textOf_error h⟩
    | inr h =>
    obtain ⟨provider, hprovider, h⟩ := h
    rw [Except.bind_eq_error_iff] at h
    cases h with
    | inl h => exact .inl ⟨_, naturalOf_error h⟩
    | inr h =>
    obtain ⟨generation, hgeneration, h⟩ := h
    rw [Except.bind_eq_error_iff] at h
    cases h with
    | inl h => exact .inl (displayOf_error h)
    | inr h =>
    obtain ⟨display, hdisplay, h⟩ := h
    rw [Except.bind_eq_error_iff] at h
    cases h with
    | inl h => exact .inl (geometryOf_error h)
    | inr h =>
    obtain ⟨geometry, hgeometry, h⟩ := h
    rw [Except.bind_eq_error_iff] at h
    cases h with
    | inl h =>
      -- Only the matrix can raise something else than a ValueError.
      cases checkTransform_error h with
      | inl hvalue => exact .inl hvalue
      | inr hover =>
        obtain ⟨he, transform, items, htransform, head, hmatrix, hoverflow⟩ := hover
        exact .inr ⟨he, members, transform, items, rfl,
          ⟨hschema, hnames, hstate, textOf_ok hprovider,
            ⟨generation, naturalOf_ok hgeneration, generation.2⟩, displayOf_ok hdisplay,
            geometryOf_ok_iff.mp ⟨geometry, hgeometry⟩⟩, htransform, head, hmatrix, hoverflow⟩
    | inr h =>
    obtain ⟨transform, -, h⟩ := h
    rw [Except.bind_eq_error_iff] at h
    cases h with
    | inl h => exact .inl ⟨_, naturalOf_error h⟩
    | inr h =>
    obtain ⟨observedAt, -, h⟩ := h
    split at h
    · exact .inl ⟨_, (Except.error.inj h).symm⟩
    · exact nomatch h
  · exact .inl ⟨_, (Except.error.inj h).symm⟩

/-- The validation of a document passes an `OverflowError` on. -/
theorem validateDisplaySession_overflows {F : Floats} {document : Value}
    (h : Overflows F document) : validateDisplaySession F document = .error overflowError := by
  obtain ⟨members, transform, items, rfl, head, htransform, thead, hmatrix, hoverflow⟩ := h
  obtain ⟨generation, hgeneration, hnatural⟩ := head.generation
  obtain ⟨display, hdisplay, hmatches⟩ := head.display
  have hprovider : textOf 256 "display session provider is invalid" (fieldOf members "provider") =
      .ok ⟨_, head.provider⟩ := by rw [textOf, dif_pos head.provider]
  have hnat : naturalOf "display session generation is invalid" (.int generation) =
      .ok ⟨generation, hnatural⟩ := by rw [naturalOf, dif_pos hnatural]
  have hshown : displayOf (.str display) = .ok ⟨display, hmatches⟩ := by
    rw [displayOf, dif_pos hmatches]
  have htouch := checkTransform_overflows (F := F) thead hmatrix hoverflow
  have hschema := head.schema
  have hstate := head.state
  obtain ⟨geometry, hgeometry⟩ := geometryOf_ok_iff.mpr head.geometry
  simp only [fieldOf] at hprovider hgeneration hdisplay hgeometry htransform hschema hstate
  simp only [validateDisplaySession]
  rw [if_neg (by simp [hschema]), if_neg (by simp [head.names]), if_neg (by simp [hstate]),
    hprovider, hgeneration, hnat, hdisplay, hshown, hgeometry, htransform, htouch]
  rfl

/-! ## State files -/

/-- The text of a state file that is given to `json.loads`: there is none when the file
    is too large, holds a NUL or is not UTF-8. -/
def stateText (data : ByteArray) : Option String :=
  if data.size > 64 * 1024 || data.data.toList.contains 0 then none else decodeSig data

/-- A state file that makes the reader raise something else than it catches: the scan of
    its text gets past the recursion limit, or its document has a matrix with an integer
    that is too large. -/
def Escapes (rt : Runtime) (F : Floats) (data : ByteArray) : Prop :=
  ∃ text, stateText data = some text ∧ (ReachesTooDeep rt text.toList ∨
    ∃ document, Python.loads rt text.toList = .ok document ∧ Overflows F document)

theorem readDocument_eq (rt : Runtime) (F : Floats) (data : ByteArray) :
    (stateText data = none ∧ ∃ text, readDocument rt F data = .error (valueError text)) ∨
      ∃ text, stateText data = some text ∧ readDocument rt F data =
        match Python.loads rt text.toList with
        | .ok document => validateDisplaySession F document
        | .error .recursionError =>
          .error (.exc "RecursionError" "maximum recursion depth exceeded")
        | .error _ => .error (valueError "display session state is not valid JSON") := by
  unfold stateText readDocument
  by_cases hbound : (decide (data.size > 64 * 1024) || data.data.toList.contains 0) = true
  · rw [if_pos hbound, if_pos hbound]
    exact .inl ⟨rfl, _, rfl⟩
  · rw [if_neg hbound, if_neg hbound]
    cases hd : decodeSig data with
    | none => exact .inl ⟨rfl, _, rfl⟩
    | some text => exact .inr ⟨text, rfl, rfl⟩

/-- Reading a file raises a `ValueError` or the file is one of those. -/
theorem readDocument_error {rt : Runtime} {F : Floats} {data : ByteArray} {e : PyError}
    (h : readDocument rt F data = .error e) :
    (∃ text, e = valueError text) ∨ Escapes rt F data := by
  cases readDocument_eq rt F data with
  | inl hnone =>
    obtain ⟨-, text, htext⟩ := hnone
    rw [htext] at h
    exact .inl ⟨text, (Except.error.inj h).symm⟩
  | inr hsome =>
    obtain ⟨text, htext, hread⟩ := hsome
    rw [hread] at h
    cases hload : Python.loads rt text.toList with
    | ok document =>
      rw [hload] at h
      cases validateDisplaySession_error h with
      | inl hvalue => exact .inl hvalue
      | inr hover => exact .inr ⟨text, htext, .inr ⟨document, hload, hover.2⟩⟩
    | error error =>
      rw [hload] at h
      cases error with
      | recursionError =>
        exact .inr ⟨text, htext, .inl ((Python.loads_recursionError_iff rt _).mp hload)⟩
      | decodeError | valueError => exact .inl ⟨_, (Except.error.inj h).symm⟩

/-- Reading one of those files raises no `ValueError`. -/
theorem readDocument_escapes {rt : Runtime} {F : Floats} {data : ByteArray}
    (h : Escapes rt F data) :
    ∃ name text, name ≠ "ValueError" ∧ readDocument rt F data = .error (.exc name text) := by
  obtain ⟨text, htext, h⟩ := h
  cases readDocument_eq rt F data with
  | inl hnone =>
    rw [hnone.1] at htext
    cases htext
  | inr hsome =>
    obtain ⟨text', htext', hread⟩ := hsome
    obtain rfl := Option.some.inj (htext.symm.trans htext')
    rw [hread]
    cases h with
    | inl hdeep =>
      rw [(Python.loads_recursionError_iff rt _).mpr hdeep]
      exact ⟨_, _, by decide, rfl⟩
    | inr hover =>
      obtain ⟨document, hload, hover⟩ := hover
      rw [hload]
      exact ⟨_, _, by decide, validateDisplaySession_overflows hover⟩

/-! ## The search -/

/-- The session of a file that is valid and fresh. -/
def freshFile (rt : Runtime) (F : Floats) (maxAgeMs : Nat) : StateFile × Int → Option DisplaySession
  | (.read data, now) => (freshSession maxAgeMs now (readDocument rt F data)).toOption
  | (.missing, _) | (.failed, _) => none

/-- The valid and fresh sessions among the files, in their order. -/
def freshSessions (rt : Runtime) (F : Floats) (source : SessionSource) : List DisplaySession :=
  source.files.filterMap (freshFile rt F source.maxAgeMs)

theorem requireFresh_error {maxAgeMs : Nat} {now : Int} {session : DisplaySession} {e : PyError}
    (h : requireFresh maxAgeMs now session = .error e) : ∃ error, e = .hal error := by
  simp only [requireFresh] at h
  split at h
  · exact ⟨_, (Except.error.inj h).symm⟩
  · exact nomatch h

/-- A file that is none of those is fresh, or what is raised is caught. -/
theorem freshSession_caught {rt : Runtime} {F : Floats} {maxAgeMs : Nat} {now : Int}
    {data : ByteArray} {e : PyError} (hnot : ¬Escapes rt F data)
    (h : freshSession maxAgeMs now (readDocument rt F data) = .error e) :
    (∃ text, e = valueError text) ∨ ∃ error, e = .hal error := by
  unfold freshSession at h
  rw [Except.bind_eq_error_iff] at h
  cases h with
  | inl h => exact .inl ((readDocument_error h).resolve_right hnot)
  | inr h =>
    obtain ⟨session, -, h⟩ := h
    rw [Except.bind_eq_error_iff] at h
    cases h with
    | inl h => exact .inr (requireFresh_error h)
    | inr h => exact nomatch h.choose_spec.2

/-- The loop skips every file that is not fresh, as long as none of those is among them. -/
theorem loadFiles_ok (rt : Runtime) (F : Floats) (maxAgeMs : Nat) (files : List (StateFile × Int))
    (h : ∀ data now, (StateFile.read data, now) ∈ files → ¬Escapes rt F data) :
    ∃ invalid stale, loadFiles rt F maxAgeMs files =
      .ok (files.filterMap (freshFile rt F maxAgeMs), invalid, stale) := by
  induction files with
  | nil => exact ⟨_, _, rfl⟩
  | cons file files ih =>
    obtain ⟨invalid, stale, hrest⟩ :=
      ih fun data now hmem => h data now (List.mem_cons_of_mem _ hmem)
    obtain ⟨file, now⟩ := file
    cases file with
    | missing => exact ⟨invalid, stale, by rw [loadFiles, hrest]; rfl⟩
    | failed => exact ⟨true, stale, by rw [loadFiles, hrest]; rfl⟩
    | read data =>
      rw [loadFiles, List.filterMap_cons, freshFile]
      cases hfresh : freshSession maxAgeMs now (readDocument rt F data) with
      | ok session => exact ⟨invalid, stale, by rw [hrest]; rfl⟩
      | error e =>
        cases freshSession_caught (h data now List.mem_cons_self) hfresh with
        | inl hvalue =>
          obtain ⟨text, rfl⟩ := hvalue
          exact ⟨true, stale, by rw [hrest]; rfl⟩
        | inr hhal =>
          obtain ⟨error, rfl⟩ := hhal
          exact ⟨invalid, true, by rw [hrest]; rfl⟩

/-- An exception of a file that is not caught ends the loop. -/
theorem loadFiles_raises {rt : Runtime} {F : Floats} {data : ByteArray} {name text : String}
    (maxAgeMs : Nat) (now : Int) (files : List (StateFile × Int)) (hname : name ≠ "ValueError")
    (h : readDocument rt F data = .error (.exc name text)) :
    loadFiles rt F maxAgeMs ((.read data, now) :: files) = .error (.exc name text) := by
  rw [loadFiles, h]
  simp only [freshSession, bind, Except.bind]
  split
  · next heq => cases heq
  · next heq =>
    obtain ⟨rfl, -⟩ := PyError.exc.inj (Except.error.inj heq)
    exact absurd rfl hname
  · next heq => cases heq
  · next heq => rw [Except.error.inj heq]

/-- The loop ends with the exception of one of those files, wherever it is. -/
theorem loadFiles_escapes {rt : Runtime} {F : Floats} (maxAgeMs : Nat)
    {files : List (StateFile × Int)} {data : ByteArray} {now : Int}
    (hmem : (StateFile.read data, now) ∈ files) (h : Escapes rt F data) :
    ∃ name text, loadFiles rt F maxAgeMs files = .error (.exc name text) := by
  induction files with
  | nil => exact nomatch hmem
  | cons file files ih =>
    obtain ⟨file, now'⟩ := file
    cases file with
    | missing =>
      have hmem' : (StateFile.read data, now) ∈ files := by simpa using hmem
      obtain ⟨name, text, hrest⟩ := ih hmem'
      exact ⟨name, text, by rw [loadFiles, hrest]⟩
    | failed =>
      have hmem' : (StateFile.read data, now) ∈ files := by simpa using hmem
      obtain ⟨name, text, hrest⟩ := ih hmem'
      exact ⟨name, text, by rw [loadFiles, hrest]; rfl⟩
    | read data' =>
      by_cases hhead : Escapes rt F data'
      · -- the loop ends at this file
        obtain ⟨name, text, hname, hread⟩ := readDocument_escapes hhead
        exact ⟨name, text, loadFiles_raises maxAgeMs now' files hname hread⟩
      · -- it gets past this file, and to the end of the others
        have hmem' : (StateFile.read data, now) ∈ files := by
          cases List.mem_cons.mp hmem with
          | inl heq =>
            simp only [Prod.mk.injEq, StateFile.read.injEq] at heq
            exact absurd (heq.1 ▸ h) hhead
          | inr hmem => exact hmem
        obtain ⟨name, text, hrest⟩ := ih hmem'
        refine ⟨name, text, ?_⟩
        rw [loadFiles, hrest]
        cases hfresh : freshSession maxAgeMs now' (readDocument rt F data') with
        | ok session => rfl
        | error e =>
          cases freshSession_caught hhead hfresh with
          | inl hvalue =>
            obtain ⟨text', rfl⟩ := hvalue
            rfl
          | inr hhal =>
            obtain ⟨error, rfl⟩ := hhal
            rfl

/-- `max` by the time of the observation: one of the sessions, with no later one. -/
theorem latest_spec (sessions : List DisplaySession) :
    match latest sessions with
    | none => sessions = []
    | some session =>
      session ∈ sessions ∧ ∀ other ∈ sessions, other.observedAt ≤ session.observedAt := by
  induction sessions with
  | nil => rfl
  | cons session rest ih =>
    rw [latest]
    cases hrest : latest rest with
    | none =>
      rw [hrest] at ih
      subst ih
      simp
    | some other =>
      rw [hrest] at ih
      obtain ⟨hmem, hle⟩ := ih
      simp only
      by_cases hlt : session.observedAt < other.observedAt
      · rw [if_pos hlt]
        refine ⟨List.mem_cons_of_mem _ hmem, ?_⟩
        intro third hthird
        cases List.mem_cons.mp hthird with
        | inl heq =>
          rw [heq]
          omega
        | inr hthird => exact hle third hthird
      · rw [if_neg hlt]
        refine ⟨List.mem_cons_self, ?_⟩
        intro third hthird
        cases List.mem_cons.mp hthird with
        | inl heq => rw [heq]
        | inr hthird =>
          have := hle third hthird
          omega

private theorem load_some {rt : Runtime} {F : Floats} {source : SessionSource}
    {invalid stale : Bool} {sessions : List DisplaySession} {session : DisplaySession}
    (h : loadFiles rt F source.maxAgeMs source.files = .ok (sessions, invalid, stale))
    (hl : latest sessions = some session) : load rt F source = .ok session := by
  simp only [load, h, bind, Except.bind, hl]
  rfl

private theorem load_none {rt : Runtime} {F : Floats} {source : SessionSource}
    {invalid stale : Bool} {sessions : List DisplaySession}
    (h : loadFiles rt F source.maxAgeMs source.files = .ok (sessions, invalid, stale))
    (hl : latest sessions = none) :
    ∃ message details, load rt F source = .error (.hal (.unavailable message details)) := by
  simp only [load, h, bind, Except.bind, hl]
  exact ⟨_, _, rfl⟩

/-- The search ends with the newest of the valid and fresh sessions, or with an
    `UnavailableError` when there is none, if and only if no file makes the reader raise a
    `RecursionError` or an `OverflowError`. -/
theorem good_session_found (rt : Runtime) (F : Floats) (source : SessionSource) :
    (match load rt F source with
      | .ok session => session ∈ freshSessions rt F source ∧
          ∀ other ∈ freshSessions rt F source, other.observedAt ≤ session.observedAt
      | .error error => freshSessions rt F source = [] ∧
          ∃ message details, error = .hal (.unavailable message details)) ↔
      ∀ data now, (StateFile.read data, now) ∈ source.files → ¬Escapes rt F data := by
  constructor
  · intro h data now hmem hescapes
    obtain ⟨name, text, hraise⟩ := loadFiles_escapes source.maxAgeMs hmem hescapes
    have hload : load rt F source = .error (.exc name text) := by
      rw [load, hraise]
      rfl
    rw [hload] at h
    obtain ⟨-, message, details, heq⟩ := h
    cases heq
  · intro h
    obtain ⟨invalid, stale, hfiles⟩ := loadFiles_ok rt F source.maxAgeMs source.files h
    have hlatest := latest_spec (freshSessions rt F source)
    cases hl : latest (freshSessions rt F source) with
    | some session =>
      rw [hl] at hlatest
      rw [load_some hfiles hl]
      exact hlatest
    | none =>
      rw [hl] at hlatest
      obtain ⟨message, details, hload⟩ := load_none hfiles hl
      rw [hload]
      exact ⟨hlatest, message, details, rfl⟩

namespace Sample

/-- Nothing but opening brackets. -/
def nested (n : Nat) : String := String.ofList (List.replicate n '[')

theorem bytes_nested (n : Nat) : (nested n).toUTF8.data.toList = List.replicate n 0x5b := by
  rw [Python.Text.bytes_of_decode (Python.fromUTF8?_toUTF8 (nested n)), nested,
    String.toList_ofList]
  induction n with
  | zero => rfl
  | succ n ih =>
    rw [List.replicate_succ, List.flatMap_cons, ih]
    rfl

theorem stateText_nested {n : Nat} (h : n ≤ 64 * 1024) :
    stateText (nested n).toUTF8 = some (nested n) := by
  have hsize : (nested n).toUTF8.size = n := by
    change (nested n).toUTF8.data.toList.length = n
    rw [bytes_nested, List.length_replicate]
  have hnul : (nested n).toUTF8.data.toList.contains 0 = false := by
    rw [bytes_nested]
    simp
  have hmark : (nested n).toUTF8.data.toList.take 3 ≠ [0xef, 0xbb, 0xbf] := by
    rw [bytes_nested]
    intro heq
    have hmem : (0xef : UInt8) ∈ (List.replicate n 0x5b).take 3 := by simp [heq]
    exact absurd (List.eq_of_mem_replicate (List.mem_of_mem_take hmem)) (by decide)
  have hbound : (decide ((nested n).toUTF8.size > 64 * 1024) ||
      (nested n).toUTF8.data.toList.contains 0) ≠ true := by
    rw [hnul, hsize]
    simpa using h
  rw [stateText, if_neg hbound, decodeSig, if_neg hmark, Python.fromUTF8?_toUTF8]

/-- The scan opens one array after the other. -/
theorem reaches_nested (rt : Runtime) (n : Nat) (stack : List Python.Container)
    (h : stack.length + n ≤ rt.recursionLimit) :
    Python.Reaches rt (.value stack (List.replicate (n + 1) '['))
      (.value (List.replicate n .array ++ stack) ['[']) := by
  induction n generalizing stack with
  | zero => exact .refl
  | succ n ih =>
    have hmove : (Python.Place.value stack (List.replicate (n + 2) '[')).move rt =
        .go (.value (.array :: stack) (List.replicate (n + 1) '[')) := by
      rw [List.replicate_succ]
      simp only [Python.Place.move, Python.moveValue]
      rw [if_neg (by omega)]
      rfl
    have hrest := ih (.array :: stack) (by rw [List.length_cons]; omega)
    have hstack : List.replicate (n + 1) Python.Container.array ++ stack =
        List.replicate n .array ++ .array :: stack := by
      rw [List.replicate_succ', List.append_assoc, List.singleton_append]
    rw [hstack]
    exact .head hmove hrest

theorem deep_nested {rt : Runtime} {n : Nat} (h : rt.recursionLimit = n) :
    ReachesTooDeep rt (nested (n + 1)).toList := by
  have hreach := reaches_nested rt n [] (by simp [h])
  have hskip : Python.skipWs (List.replicate (n + 1) '[') = List.replicate (n + 1) '[' := by
    rw [Python.skipWs, List.replicate_succ, List.dropWhile_cons, if_neg (by decide)]
  refine ⟨.value (List.replicate n .array ++ []) ['['], ?_, ?_⟩
  · rw [nested, String.toList_ofList, Python.startPlace, hskip]
    exact hreach
  · simp [Python.Place.TooDeep, h]

/-- The state of a display without an input transform. -/
def readyState : String :=
  "\x7b\"schema\":\"msys.display-session.v1\",\"state\":\"ready\"," ++
  "\"provider\":\"org.example.x11:display\"," ++
  "\"generation\":1,\"display\":\":0\"," ++
  "\"geometry\":\x7b\"width\":800,\"height\":480,\"depth\":24\x7d," ++
  "\"input_transform\":\x7b\"enabled\":false,\"mode\":\"none\",\"device\":null," ++
  "\"space\":\"normalized-display\",\"matrix\":null,\"source\":\"x11\",\"verified\":true\x7d," ++
  "\"observed_at_unix_ms\":1000\x7d"


/-- Two files that are looked at at the same time. -/
def twoFiles (first second : ByteArray) : SessionSource where
  response := none
  files := [(.read first, 1500), (.read second, 1500)]
  maxAgeMs := 45000

theorem hides {rt : Runtime} {F : Floats} {first second : ByteArray} {session : DisplaySession}
    {name text : String} (hname : name ≠ "ValueError")
    (hfirst : readDocument rt F first = .error (.exc name text))
    (hsecond : freshFile rt F 45000 (.read second, 1500) = some session) :
    freshSessions rt F (twoFiles first second) = [session] ∧
      load rt F (twoFiles first second) = .error (.exc name text) := by
  have hnone : freshFile rt F 45000 (.read first, 1500) = none := by
    rw [freshFile, hfirst]
    rfl
  constructor
  · simp only [freshSessions, twoFiles, List.filterMap_cons, List.filterMap_nil, hnone, hsecond]
  · rw [load, twoFiles, loadFiles_raises 45000 1500 _ hname hfirst]
    rfl

end Sample

/-- A valid and fresh state is not found after a file that nests too deeply: the search
    ends with a `RecursionError`. -/
theorem good_session_hidden :
    ∃ session, freshSessions Runtime.sample Ch347.exactFloats
        (Sample.twoFiles (Sample.nested 1001).toUTF8 Sample.readyState.toUTF8) = [session] ∧
      load Runtime.sample Ch347.exactFloats
        (Sample.twoFiles (Sample.nested 1001).toUTF8 Sample.readyState.toUTF8) =
        .error (.exc "RecursionError" "maximum recursion depth exceeded") := by
  have hread : readDocument Runtime.sample Ch347.exactFloats (Sample.nested 1001).toUTF8 =
      .error (.exc "RecursionError" "maximum recursion depth exceeded") := by
    cases readDocument_eq Runtime.sample Ch347.exactFloats (Sample.nested 1001).toUTF8 with
    | inl hnone =>
      rw [Sample.stateText_nested (by decide)] at hnone
      exact nomatch hnone.1
    | inr hsome =>
      obtain ⟨text, htext, hread⟩ := hsome
      have hdeep : ReachesTooDeep Runtime.sample text.toList := by
        rw [Sample.stateText_nested (by decide), Option.some.injEq] at htext
        exact htext ▸ Sample.deep_nested rfl
      rw [hread, (Python.loads_recursionError_iff _ _).mpr hdeep]
  have hready : (freshFile Runtime.sample Ch347.exactFloats 45000
      (.read Sample.readyState.toUTF8, 1500)).isSome = true := by decide +kernel
  obtain ⟨session, hsession⟩ := Option.isSome_iff_exists.mp hready
  exact ⟨session, Sample.hides (by decide) hread hsession⟩

end MsysHal

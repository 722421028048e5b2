import MsysHal.Spec.Settings

/-!
# The touch calibration read back

The fields of a calibration are written as numbers under their keys. The validator
accepts what it has accepted before, so the text of a calibration is read as it.

## Key results

- `validatedCalibration_ok`: what the validator accepts is within the bounds
- `parseCalibration_writeCalibration`: the text of a calibration
-/

namespace MsysHal.Ch347.Documents

open Python (Value intText)
open Reload

/-! ## The touch calibration -/

/-- A calibration that passes its checks: its fields in their order, each with a
    value that passes the check of the field. -/
structure CalibrationBounds (c : Calibration) : Prop where
  fields : c.items.map Prod.fst = calibrationFields
  valid : ∀ item ∈ c.items, checkField item.1 item.2 = .ok item.2
  order : checkOrder c = .ok c

theorem calibrationDefaults_bounds : CalibrationBounds calibrationDefaults where
  fields := rfl
  valid := by
    simp only [calibrationDefaults, List.forall_mem_cons]
    refine ⟨rfl, rfl, rfl, rfl, rfl, rfl, rfl, rfl, rfl, rfl, rfl, rfl, rfl, ?_⟩
    exact fun _ h => by cases h
  order := rfl

/-- What passes the check of a field. -/
theorem checkField_ok {field : String} {raw value : Value} (h : checkField field raw = .ok value) :
    (booleanCalibrationFields.contains field = true ∧ ∃ b, value = .bool b) ∨
      (booleanCalibrationFields.contains field = false ∧ ∃ n, value = .int n ∧
        ((calibrationRanges.lookup field).getD (0, 0)).1 ≤ n ∧
        n ≤ ((calibrationRanges.lookup field).getD (0, 0)).2) := by
  unfold checkField at h
  split at h
  · next hflag =>
    cases raw with
    | bool b =>
      cases h
      exact .inl ⟨hflag, b, rfl⟩
    | _ => exact nomatch h
  · next hflag =>
    obtain ⟨n, hn, rfl⟩ := Except.map_eq_ok_iff.mp h
    exact .inr ⟨Bool.not_eq_true _ ▸ hflag, n, rfl, (integer_inv hn).2⟩

/-- A value that has been checked passes the check again. -/
theorem checkField_idem {field : String} {raw value : Value}
    (h : checkField field raw = .ok value) : checkField field value = .ok value := by
  rcases checkField_ok h with ⟨hflag, b, rfl⟩ | ⟨hflag, n, rfl, hn⟩
  · unfold checkField
    rw [if_pos hflag]
  · unfold checkField
    rw [if_neg (by rw [hflag]; exact Bool.false_ne_true)]
    simp only [integer_of_mem hn]
    rfl

private theorem setFields_bounds {members : List (Value × Value)} {base c : Calibration}
    (hmembers : ∀ member ∈ members, keyName member.1 ∈ calibrationFields)
    (hfields : base.items.map Prod.fst = calibrationFields)
    (hvalid : ∀ item ∈ base.items, checkField item.1 item.2 = .ok item.2)
    (h : setFields base members = .ok c) : c.items.map Prod.fst = calibrationFields ∧
      ∀ item ∈ c.items, checkField item.1 item.2 = .ok item.2 := by
  induction members generalizing base with
  | nil =>
    cases h
    exact ⟨hfields, hvalid⟩
  | cons member members ih =>
    obtain ⟨value, hvalue, h⟩ := Except.bind_eq_ok_iff.mp h
    rw [List.forall_mem_cons] at hmembers
    refine ih hmembers.2 ?_ ?_ h
    · exact (Dict.keys_setItems value (hfields.symm ▸ hmembers.1)).trans hfields
    · intro item hitem
      rcases Dict.mem_setItems hitem with rfl | hitem
      · exact checkField_idem hvalue
      · exact hvalid item hitem

private theorem isEmpty_sortStrings (items : List String) :
    (sortStrings items).isEmpty = items.isEmpty := by
  rw [Bool.eq_iff_iff, List.isEmpty_iff, List.isEmpty_iff, ← List.length_eq_zero_iff,
    ← List.length_eq_zero_iff, sortStrings, List.length_insertionSort]

private theorem checkOrder_ok {c c' : Calibration} (h : checkOrder c = .ok c') : c' = c := by
  rw [checkOrder] at h
  split_ifs at h
  cases h
  rfl

/-- A validated calibration, over a base that was. -/
theorem validatedCalibration_ok {value : Value} {whole : Bool} {base : Option Calibration}
    {c : Calibration} (hbase : ∀ b ∈ base, CalibrationBounds b)
    (h : validatedCalibration value whole base = .ok c) : CalibrationBounds c := by
  have hdefault : CalibrationBounds (base.getD calibrationDefaults) := by
    cases base with
    | none => exact calibrationDefaults_bounds
    | some b => exact hbase b rfl
  cases value with
  | dict members =>
    simp only [validatedCalibration, pure_bind] at h
    split at h
    · exact nomatch h
    · split at h
      · exact nomatch h
      · next hknown =>
        split at h
        · exact nomatch h
        · obtain ⟨result, hresult, horder⟩ := Except.bind_eq_ok_iff.mp h
          have hmembers : ∀ member ∈ members, keyName member.1 ∈ calibrationFields := by
            rw [isEmpty_sortStrings, Bool.not_eq_true, Bool.not_eq_false', List.isEmpty_iff,
              List.filter_eq_nil_iff] at hknown
            intro member hmember
            have hin :=
              hknown (keyName member.1) (List.mem_map_of_mem (f := keyName ∘ Prod.fst) hmember)
            simpa using hin
          obtain ⟨hfields, hvalid⟩ :=
            setFields_bounds hmembers hdefault.fields hdefault.valid hresult
          have heq := checkOrder_ok horder
          subst heq
          exact ⟨hfields, hvalid, horder⟩
  | _ => exact nomatch h

/-- The first line of a calibration is a comment on one line. -/
private theorem heading_no_break :
    "# Managed atomically by MSYS HAL CH347 control".toList.all (!isLineBreak ·) = true := by
  decide

/-- The assignments of a calibration. -/
def calibrationSettings (c : Calibration) : List (String × Int) :=
  calibrationKeys.map fun key => (key.1, encoded ((c.get? key.2).getD .null))

theorem calibrationSettings_keys (c : Calibration) :
    (calibrationSettings c).map Prod.fst = calibrationKeys.map Prod.fst := by
  rw [calibrationSettings, List.map_map]
  rfl

theorem readsKeys_calibration (c : Calibration) :
    ReadsKeys calibrationKeys ((calibrationSettings c).map Prod.fst) := by
  rw [calibrationSettings_keys]
  decide +kernel

theorem writeCalibration_eq (c : Calibration) :
    writeCalibration c = document ("# Managed atomically by MSYS HAL CH347 control".toList ::
      (numberItems (calibrationSettings c)).map lineOf) := by
  rw [writeCalibration, numberItems, calibrationSettings, List.map_map, List.map_map]
  rfl

/-- The numbers a calibration may have. -/
private theorem range_bounds (field : String) :
    0 ≤ ((calibrationRanges.lookup field).getD (0, 0)).1 ∧
      ((calibrationRanges.lookup field).getD (0, 0)).2 ≤ 65535 := by
  cases hlookup : calibrationRanges.lookup field with
  | none => decide
  | some range =>
    have hmem : (field, range) ∈ calibrationRanges := by
      obtain ⟨before, after, heq, -⟩ := List.lookup_eq_some_iff.mp hlookup
      rw [heq]
      exact List.mem_append_right _ (List.mem_cons_self ..)
    have hall : ∀ item ∈ calibrationRanges, 0 ≤ item.2.1 ∧ item.2.2 ≤ 65535 := by decide
    exact hall _ hmem

/-- What a checked value is written as. -/
private theorem encoded_bounds {field : String} {value : Value}
    (h : checkField field value = .ok value) : 0 ≤ encoded value ∧ encoded value < 10 ^ 10 := by
  rcases checkField_ok h with ⟨-, b, rfl⟩ | ⟨-, n, rfl, hlo, hhi⟩
  · exact flagInt_bounds b
  · have := range_bounds field
    change 0 ≤ n ∧ n < 10 ^ 10
    omega

/-- The text of a checked value is decoded as the value. -/
private theorem decodeFields_items {items : List (String × Value)}
    (hvalid : ∀ item ∈ items, checkField item.1 item.2 = .ok item.2) :
    decodeFields (items.map fun item => (item.1, (encoded item.2).toNat)) =
      .ok (items.map fun item => (.str item.1, item.2)) := by
  induction items with
  | nil => rfl
  | cons item items ih =>
    rw [List.forall_mem_cons] at hvalid
    obtain ⟨field, value⟩ := item
    rcases checkField_ok hvalid.1 with ⟨hflag, b, rfl⟩ | ⟨hflag, n, rfl, hn, -⟩
    · have hencoded : encoded (.bool b) = flagInt b := rfl
      simp only [List.map_cons, decodeFields, hflag, if_true, hencoded, if_neg (flagInt_le b),
        flagInt_beq, ih hvalid.2]
      rfl
    · have hn : ((n.toNat : Nat) : Int) = n := Int.toNat_of_nonneg ((range_bounds field).1.trans hn)
      have hencoded : encoded (.int n) = n := rfl
      simp only [List.map_cons, decodeFields, hflag, Bool.false_eq_true, if_false, hencoded, hn,
        ih hvalid.2]
      rfl

/-- Checked values are set one after the other. -/
private theorem setFields_items {items : List (String × Value)} (base : Calibration)
    (hvalid : ∀ item ∈ items, checkField item.1 item.2 = .ok item.2) :
    setFields base (items.map fun item => (.str item.1, item.2)) = .ok (base.update items) := by
  induction items generalizing base with
  | nil => rfl
  | cons item items ih =>
    rw [List.forall_mem_cons] at hvalid
    rw [List.map_cons, setFields]
    change (checkField item.1 item.2 >>= _) = _
    rw [hvalid.1, ok_bind]
    exact ih (base.set item.1 item.2) hvalid.2

private theorem lookup_members (items : List (String × Value)) (name : String) :
    Value.lookup name (items.map fun item => (Value.str item.1, item.2)) = items.lookup name := by
  induction items with
  | nil => rfl
  | cons item items ih =>
    rw [List.map_cons, Value.lookup, List.lookup_cons, ih, Value.isKey]
    by_cases heq : item.1 = name
    · rw [heq, if_pos (beq_self_eq_true _), beq_self_eq_true]
    · rw [if_neg (by rw [beq_iff_eq]; exact heq), beq_eq_false_iff_ne.mpr (Ne.symm heq)]

section Calibrations

variable {c : Calibration} (h : CalibrationBounds c)

include h

/-- The value of each key. -/
private theorem CalibrationBounds.get? {field : String} (hfield : field ∈ calibrationFields) :
    ∃ value, c.get? field = some value ∧ checkField field value = .ok value := by
  rw [← h.fields, List.mem_map] at hfield
  obtain ⟨item, hitem, rfl⟩ := hfield
  exact ⟨item.2, (c.get?_eq_some_iff _ _).mpr hitem, h.valid item hitem⟩

theorem calibrationSettings_writable : Writable (calibrationSettings c) := by
  intro setting hsetting
  obtain ⟨key, hkey, rfl⟩ := List.mem_map.mp hsetting
  have hfield : key.2 ∈ calibrationFields := List.mem_map_of_mem (f := Prod.snd) hkey
  obtain ⟨value, hvalue, hcheck⟩ := h.get? hfield
  rw [hvalue]
  exact encoded_bounds hcheck

/-- The reader finds the fields in their order. -/
private theorem calibrationSettings_entries :
    (calibrationSettings c).map (numberEntry calibrationKeys) =
      c.items.map fun item => (item.1, (encoded item.2).toNat) := by
  have hlookup : ∀ key ∈ calibrationKeys, calibrationKeys.lookup key.1 = some key.2 := by
    decide +kernel
  have hentry : (calibrationSettings c).map (numberEntry calibrationKeys) =
      (calibrationKeys.map Prod.snd).map fun field =>
        (field, (encoded ((c.get? field).getD .null)).toNat) := by
    rw [calibrationSettings, List.map_map, List.map_map]
    refine List.map_congr_left fun key hkey => ?_
    rw [Function.comp_apply, numberEntry, hlookup key hkey, Option.getD_some, Function.comp_apply]
  have hfields : calibrationKeys.map Prod.snd = c.items.map Prod.fst := h.fields.symm ▸ rfl
  rw [hentry, hfields, List.map_map]
  refine List.map_congr_left fun item hitem => ?_
  rw [Function.comp_apply, (c.get?_eq_some_iff _ _).mpr hitem, Option.getD_some]

/-- A validated calibration passes the validator again. -/
theorem validatedCalibration_items :
    validatedCalibration (.dict (c.items.map fun item => (.str item.1, item.2))) true = .ok c := by
  have hlength : ¬ (c.items.map fun item => (Value.str item.1, item.2)).length >
      calibrationFields.length := by
    rw [List.length_map, ← h.fields, List.length_map]
    exact lt_irrefl _
  have hnames : (c.items.map fun item => (Value.str item.1, item.2)).map (keyName ∘ Prod.fst) =
      calibrationFields := by
    rw [List.map_map, ← h.fields]
    rfl
  have hunknown : (sortStrings (calibrationFields.filter (!calibrationFields.contains ·))).isEmpty =
      true := by
    decide +kernel
  have hmissing : (true && calibrationFields.any fun field => (Value.lookup field
      (c.items.map fun item => (Value.str item.1, item.2))).isNone) = false := by
    rw [Bool.true_and, List.any_eq_false]
    intro field hfield
    obtain ⟨value, hvalue, -⟩ := h.get? hfield
    rw [lookup_members, show c.items.lookup field = some value from hvalue]
    exact Bool.false_ne_true
  have hupdate := Dict.update_of_keys (d := calibrationDefaults) h.fields.symm
  simp only [validatedCalibration, pure_bind, if_neg hlength, hnames, hunknown, Bool.not_true,
    Bool.false_eq_true, if_false, hmissing, Option.getD_none, setFields_items _ h.valid,
    hupdate, ok_bind]
  exact h.order

theorem parseCalibration_writeCalibration : parseCalibration (writeCalibration c) = .ok c := by
  have hraw : assignmentsFrom calibrationKeys calibrationFile 1
      (splitlines (writeCalibration c)) [] =
      .ok (c.items.map fun item => (item.1, (encoded item.2).toNat)) := by
    have hwritable := calibrationSettings_writable h
    have hreads := readsKeys_numberItems (readsKeys_calibration c)
    rw [writeCalibration_eq, splitlines_document]
    · change assignmentsFrom calibrationKeys calibrationFile 2 _ [] = _
      rw [hreads.assignmentsFrom_lines hwritable.isNumeral, hwritable.entries,
        calibrationSettings_entries h]
    · rw [List.forall_mem_cons]
      refine ⟨fun c hc => ?_, hreads.no_break hwritable.isNumeral⟩
      simpa only [Bool.not_eq_true'] using List.all_eq_true.mp heading_no_break c hc
  have hrequire : requireFields calibrationFields
      (c.items.map fun item => (item.1, (encoded item.2).toNat))
      "CH347 touch calibration is incomplete" = .ok () := by
    have hfst : (c.items.map fun item => (item.1, (encoded item.2).toNat)).map Prod.fst =
        calibrationFields := by
      rw [List.map_map, ← h.fields]
      rfl
    rw [requireFields, missingFields, List.filter_lookup_isNone hfst]
    rfl
  rw [parseCalibration, hraw, ok_bind, hrequire, ok_bind, decodeFields_items h.valid, ok_bind]
  exact validatedCalibration_items h

end Calibrations

end MsysHal.Ch347.Documents

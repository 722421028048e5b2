import MsysHal.ForStd.List
import MsysHal.Spec.Storage

/-!
# Storage failures stay visible

What the log says about failures is a table without a bound: a failure writes the
row of its volume, a success removes it. While that table has no more rows than the
process has room for, the process has the same rows, and each scan reports the last
failure of a volume.

## Key results

- `faultOf_recorded`: a failure is in the unbounded table until a success
- `records_kept`: the process keeps the rows of the unbounded table
- `failure_visible`: each scan reports the last failure
- `failure_dropped`: the failure of a 33rd volume
-/

namespace MsysHal.Native.Storage

open Interleave (Does Log Keeps Composes Maintains does_pure does_bind does_get_bind
  does_modify_bind)

/-! ## Rows -/

section Rows

variable {rows : List StorageError} {name other : List Char}

theorem faultOf_cons (row : StorageError) (rows : List StorageError) (name : List Char) :
    faultOf (row :: rows) name = if row.name = name then some row.fault else faultOf rows name := by
  by_cases h : row.name = name
  · simp [faultOf, h]
  · simp [faultOf, h]

theorem faultOf_append_self (h : rows.any (·.name == name) = false) (fault : Fault) :
    faultOf (rows ++ [⟨name, fault⟩]) name = some fault := by
  have hnone : rows.find? (·.name == name) = none := by
    rw [List.find?_eq_none]
    exact fun row hrow => List.any_eq_false.mp h row hrow
  simp [faultOf, List.find?_append, hnone]

theorem faultOf_append_ne (h : other ≠ name) (fault : Fault) :
    faultOf (rows ++ [⟨other, fault⟩]) name = faultOf rows name := by
  simp [faultOf, List.find?_append, h]

theorem faultOf_setRow_self (rows : List StorageError) (name : List Char) (fault : Fault) :
    faultOf (setRow rows name fault) name = some fault := by
  unfold setRow
  split
  · next hany =>
    induction rows with
    | nil => cases hany
    | cons row rows ih =>
      rw [List.map_cons, faultOf_cons]
      by_cases hrow : row.name = name
      · simp [hrow]
      · rw [if_neg hrow, if_neg hrow]
        rw [List.any_cons, beq_false_of_ne hrow, Bool.false_or] at hany
        exact ih hany
  · next hany => exact faultOf_append_self (Bool.eq_false_iff.mpr hany) fault

theorem faultOf_setRow_ne (rows : List StorageError) (h : other ≠ name) (fault : Fault) :
    faultOf (setRow rows other fault) name = faultOf rows name := by
  unfold setRow
  split
  · clear * - h
    induction rows with
    | nil => rfl
    | cons row rows ih =>
      rw [List.map_cons, faultOf_cons, faultOf_cons, ih]
      by_cases hrow : row.name = other
      · simp [hrow, h]
      · simp [hrow]
  · exact faultOf_append_ne h fault

theorem faultOf_clearRow_ne (rows : List StorageError) (h : other ≠ name) :
    faultOf (clearRow rows other) name = faultOf rows name := by
  induction rows with
  | nil => rfl
  | cons row rows ih =>
    by_cases hrow : row.name = other
    · rw [clearRow, List.eraseP_cons_of_pos (by simp [hrow]), faultOf_cons,
        if_neg (hrow ▸ h)]
    · rw [clearRow, List.eraseP_cons_of_neg (by simp [hrow]), faultOf_cons, faultOf_cons]
      rw [clearRow] at ih
      rw [ih]

end Rows

/-! ## Failures of the log -/

/-- The volume of a command that fails, with the error: the paths of a mount, a return
    code, or a mount that the next scan does not confirm. -/
def failureOf : StorageStep → Option (List Char × Fault)
  | ⟨.usable _ name _, false⟩ => some (name, .mountPath)
  | ⟨.prepareTarget _ name _, false⟩ => some (name, .mountPath)
  | ⟨.run _ name (.mount _ _ _), result⟩ =>
    if (show Int from result) ≠ 0 then some (name, .mountReturn result) else none
  | ⟨.run _ name (.umount _), result⟩ =>
    if (show Int from result) ≠ 0 then some (name, .unmountReturn result) else none
  | ⟨.scan (.confirm name) m, found⟩ =>
    match (find (scan m.errors found) name).filter (·.mounted) with
    | some _ => none
    | none => some (name, .mountNotObserved)
  | _ => none

/-- The volume of a command that succeeds. -/
def successOf : StorageStep → Option (List Char)
  | ⟨.run _ name _, result⟩ => if (show Int from result) = 0 then some name else none
  | _ => none

/-- The table without a bound after one more answer. -/
def record (rows : List StorageError) (x : StorageStep) : List StorageError :=
  match failureOf x, successOf x with
  | some failure, _ => setRow rows failure.1 failure.2
  | none, some name => clearRow rows name
  | none, none => rows

/-- The volumes whose last command failed, with the error. -/
def recorded (log : StorageLog) : List StorageError := log.foldl record []

theorem recorded_concat (log : StorageLog) (x : StorageStep) :
    recorded (log ++ [x]) = record (recorded log) x := by
  rw [recorded, List.foldl_append]
  rfl

/-- The answer is neither a failure nor a success of the volume. -/
def LeavesAlone (name : List Char) (x : StorageStep) : Prop :=
  (∀ failure, failureOf x = some failure → failure.1 ≠ name) ∧ successOf x ≠ some name

theorem faultOf_record {name : List Char} {x : StorageStep} (h : LeavesAlone name x)
    (rows : List StorageError) : faultOf (record rows x) name = faultOf rows name := by
  unfold record
  cases hfailure : failureOf x with
  | some failure => exact faultOf_setRow_ne rows (h.1 failure hfailure) failure.2
  | none =>
    cases hsuccess : successOf x with
    | some other => exact faultOf_clearRow_ne rows fun heq => h.2 (by rw [hsuccess, heq])
    | none => rfl

/-- A failure is in the table until a command for the volume succeeds or fails. -/
theorem faultOf_recorded {before middle : StorageLog} {x : StorageStep} {name : List Char}
    {fault : Fault} (hx : failureOf x = some (name, fault))
    (hmiddle : ∀ y ∈ middle, LeavesAlone name y) :
    faultOf (recorded (before ++ x :: middle)) name = some fault := by
  induction middle using List.reverseRecOn with
  | nil =>
    rw [recorded_concat, record, hx]
    exact faultOf_setRow_self _ name fault
  | append_singleton middle y ih =>
    rw [← List.cons_append, ← List.append_assoc, recorded_concat,
      faultOf_record (hmiddle y (List.mem_append_right _ (List.mem_singleton_self y)))]
    exact ih fun z hz => hmiddle z (List.mem_append_left _ hz)

/-! ## The table of the process -/

/-- The unbounded table never had more rows than there is room for. -/
def Fits (log : StorageLog) : Prop :=
  ∀ before, before <+: log → (recorded before).length ≤ maxStorageVolumes

/-- The process has the rows of the unbounded table, and had them at each scan. -/
structure Records (log : StorageLog) (m : Memory) : Prop where
  rows : m.errors.rows = recorded log
  scanned : ∀ before purpose m₁ found, before ++ [⟨.scan purpose m₁, found⟩] <+: log →
    m₁.errors.rows = recorded before

/-- The process has the rows as long as they fit. -/
def RecordsFitting (log : StorageLog) (m : Memory) : Prop := Fits log → Records log m

/-- A scan of the step reads the memory. -/
def ScansFrom (m : Memory) : StorageStep → Prop
  | ⟨.scan _ m₁, _⟩ => m₁ = m
  | _ => True

theorem Fits.of_append {log log' : StorageLog} (h : Fits (log ++ log')) : Fits log :=
  fun _ hbefore => h _ (hbefore.trans (List.prefix_append log log'))

theorem Records.concat {log : StorageLog} {m m' : Memory} {x : StorageStep} (h : Records log m)
    (hscan : ScansFrom m x)
    (hm : m'.errors.rows = record m.errors.rows x) : Records (log ++ [x]) m' where
  rows := by rw [hm, h.rows, recorded_concat]
  scanned before purpose m₁ found hbefore := by
    rcases List.prefix_concat_iff.mp hbefore with heq | hbefore
    · obtain ⟨rfl, hx⟩ := List.append_inj' heq rfl
      obtain rfl := (List.cons.inj hx).1
      rw [show m₁ = m from hscan, h.rows]
    · exact h.scanned before purpose m₁ found hbefore

/-- One step with a change of the memory that does to the rows what the step says. -/
theorem records_step {m m' : Memory} {x : StorageStep}
    (hscan : ScansFrom m x)
    (hm : (record m.errors.rows x).length ≤ maxStorageVolumes →
      m'.errors.rows = record m.errors.rows x) : Maintains RecordsFitting m [x] m' := by
  intro history h hfits
  have hrecords := h hfits.of_append
  refine hrecords.concat hscan (hm ?_)
  rw [hrecords.rows, ← recorded_concat]
  exact hfits _ (List.prefix_refl _)

/-- A step that neither fails nor succeeds. -/
theorem records_quiet {m m' : Memory} {x : StorageStep}
    (hscan : ScansFrom m x)
    (hx : ∀ rows, record rows x = rows) (hm : m'.errors = m.errors) :
    Maintains RecordsFitting m [x] m' :=
  records_step hscan fun _ => by rw [hm, hx]

theorem records_none {m m' : Memory} (hm : m'.errors = m.errors) :
    Maintains RecordsFitting m [] m' := by
  intro history h hfits
  rw [List.append_nil] at hfits ⊢
  exact ⟨by rw [hm, (h hfits).rows], (h hfits).scanned⟩

theorem ErrorTable.set_rows {table : ErrorTable} {name : List Char} {fault : Fault}
    (h : (setRow table.rows name fault).length ≤ maxStorageVolumes) :
    (table.set name fault).rows = setRow table.rows name fault := by
  rw [ErrorTable.set, dif_pos h]

/-- A step that fails, with the row of the failure. -/
theorem records_failure {m : Memory} {x : StorageStep} {name : List Char} (fault : Fault)
    (hscan : ScansFrom m x)
    (hx : failureOf x = some (name, fault)) (m' : Memory)
    (hm : m'.errors = m.errors.set name fault) : Maintains RecordsFitting m [x] m' := by
  have hrecord : record m.errors.rows x = setRow m.errors.rows name fault := by rw [record, hx]
  refine records_step hscan fun hlength => ?_
  rw [hrecord] at hlength ⊢
  rw [hm, ErrorTable.set_rows hlength]

/-! ## Commands and refreshes -/

section Commands

variable {m m' : Memory} {log : StorageLog}

private theorem records_append {m₁ : Memory} {log' : StorageLog}
    (h : Maintains RecordsFitting m log m₁)
    (h' : Maintains RecordsFitting m₁ log' m') : Maintains RecordsFitting m (log ++ log') m' :=
  (Composes.maintains RecordsFitting).append h h'

private theorem records_cons {m₁ : Memory} {x : StorageStep} (h : Maintains RecordsFitting m [x] m₁)
    (h' : Maintains RecordsFitting m₁ log m') : Maintains RecordsFitting m (x :: log) m' :=
  records_append h h'

theorem MountRun.records {caller : Caller} {volume : StorageVolume} {readOnly mounted : Bool}
    (hrun : MountRun caller volume readOnly m log mounted m') :
    Maintains RecordsFitting m log m' := by
  cases hrun with
  | mounted => exact records_none rfl
  | unusable source => exact records_failure _ (by exact trivial) rfl _ rfl
  | unprepared source target =>
    exact records_cons (records_quiet trivial (fun _ => rfl) rfl)
      (records_failure _ (by exact trivial) rfl _ rfl)
  | failed source target command result hresult hcommand =>
    obtain ⟨-, -, -, rfl⟩ := hcommand
    exact records_cons (records_quiet trivial (fun _ => rfl) rfl)
      (records_cons (records_quiet trivial (fun _ => rfl) rfl)
        (records_failure (.mountReturn result) (by exact trivial) (by exact if_pos hresult) _ rfl))
  | done source target command =>
    refine records_cons (records_quiet trivial (fun _ => rfl) rfl)
      (records_cons (records_quiet trivial (fun _ => rfl) rfl)
        (records_step trivial fun _ => ?_))
    cases command <;> rfl

theorem UnmountRun.records {volume : StorageVolume} {result : UnmountResult}
    (hrun : UnmountRun volume m log result m') : Maintains RecordsFitting m log m' := by
  cases hrun with
  | idle => exact records_none rfl
  | failed target code hcode =>
    exact records_failure (.unmountReturn code) (by exact trivial) (by exact if_pos hcode) _ rfl
  | done target => exact records_step trivial fun _ => rfl

theorem ConfigRun.records (hrun : ConfigRun m log m') : Maintains RecordsFitting m log m' := by
  cases hrun with
  | loaded => exact records_none rfl
  | read config => exact records_quiet trivial (fun _ => rfl) rfl

theorem records_mountAll (volumes : List StorageVolume) :
    Keeps (Maintains RecordsFitting) (mountAll volumes) := by
  have hR := Composes.maintains RecordsFitting
  induction volumes with
  | nil => exact Keeps.pure hR _
  | cons volume volumes ih =>
    unfold mountAll
    refine .get_bind fun m => ?_
    split_ifs
    · exact ih
    · exact Keeps.bind hR (.modify fun m => records_none rfl) fun _ =>
        Keeps.bind hR (fun _ _ _ _ hdoes => (mountVolume_run hdoes).records) fun _ => ih

theorem records_scan {purpose : Purpose} (h : purpose = .policy ∨ purpose = .cache)
    (found : BlockClass) : Maintains RecordsFitting m [⟨.scan purpose m, found⟩] m := by
  refine records_quiet (show m = m from rfl) (fun _ => ?_) rfl
  rcases h with rfl | rfl <;> rfl

theorem records_refresh {purpose : Purpose} (h : purpose = .policy ∨ purpose = .cache) :
    Keeps (Maintains RecordsFitting) (refresh purpose) := by
  intro m log changed m' hdoes
  cases refresh_run hdoes with
  | single found hconfig =>
    exact records_append hconfig.records
      (records_cons (records_scan h found) (records_none rfl))
  | policy found found' hconfig hpurpose hauto hmounts =>
    exact records_append hconfig.records (records_append (records_scan h found)
      (records_append (records_mountAll _ _ _ _ _ hmounts)
        (records_cons (records_scan (.inr rfl) found') (records_none rfl))))

/-- The scan that should confirm a mount, and the row that is written when it does not. -/
theorem records_confirm (name : List Char) :
    Keeps (Maintains RecordsFitting) (confirmMount name) := by
  intro m log reply m' hdoes
  unfold confirmMount at hdoes
  obtain ⟨changed, m₁, log₁, log₂, rfl, hrefresh, hrest⟩ := does_bind.mp (does_modify_bind.mp hdoes)
  cases refresh_run hrefresh with
  | policy found found' hconfig hpurpose => cases hpurpose
  | @single m₂ log₀ found hconfig =>
    have hsuppressed : Maintains RecordsFitting m []
        { m with suppressed := m.suppressed.remove name } := records_none rfl
    have hfirst : Maintains RecordsFitting m log₀ m₂ := records_append hsuppressed hconfig.records
    rw [List.append_assoc]
    refine records_append hfirst ?_
    have hget := does_get_bind.mp hrest
    have hfailure : failureOf ⟨.scan (.confirm name) m₂, found⟩ =
        match (find (scan m₂.errors found) name).filter (·.mounted) with
        | some _ => none
        | none => some (name, .mountNotObserved) := rfl
    have hcache : (m₂.observed (scan m₂.errors found)).cache = scan m₂.errors found := rfl
    rw [hcache] at hget
    cases hfind : (find (scan m₂.errors found) name).filter (·.mounted) with
    | some volume =>
      rw [hfind] at hget hfailure
      obtain ⟨rfl, -, rfl⟩ := does_pure.mp hget
      exact records_quiet (show m₂ = m₂ from rfl) (fun _ => by rw [record, hfailure]; rfl) rfl
    | none =>
      rw [hfind] at hget hfailure
      obtain ⟨changed', m₃, log₃, log₄, rfl, hrefresh', hreply⟩ :=
        does_bind.mp (does_setError.mp hget)
      obtain ⟨rfl, -, rfl⟩ := does_pure.mp hreply
      rw [List.append_nil]
      exact records_append (records_failure _ (by exact rfl) hfailure _ rfl)
        (records_refresh (.inr rfl) _ _ _ _ hrefresh')

theorem records_kept : Kept (Maintains RecordsFitting) where
  composes := .maintains _
  timeout m := records_quiet trivial (fun _ => rfl) rfl
  call m request := records_quiet trivial (fun _ => rfl) rfl
  uevent m name := records_quiet trivial (fun _ => rfl) (by cases name <;> rfl)
  reply m reply sent := records_quiet trivial (fun _ => rfl) rfl
  changed m m' := records_quiet trivial (fun _ => rfl) rfl
  saved m enabled := records_quiet trivial (fun _ => rfl) rfl
  unsaved m enabled := records_quiet trivial (fun _ => rfl) rfl
  refresh h := records_refresh h
  mount volume readOnly _ _ _ _ hdoes := (mountVolume_run hdoes).records
  confirm name := records_confirm name
  unmount volume _ _ _ _ hdoes := (unmountVolume_run hdoes).records

end Commands

/-! ## What the scans report -/

/-- The volumes that a step reports: those of a scan. -/
def reports : StorageStep → List StorageVolume
  | ⟨.scan _ m, found⟩ => scan m.errors found
  | _ => []

theorem Records.reports {log before after : StorageLog} {m : Memory} {y : StorageStep}
    (h : Records log m) (hlog : log = before ++ y :: after) {volume : StorageVolume}
    (hvolume : volume ∈ reports y) : volume.error = faultOf (recorded before) volume.name := by
  have hbefore : before ++ [y] <+: log := ⟨after, by rw [hlog, List.append_assoc]; rfl⟩
  match y, hvolume, hbefore with
  | ⟨.scan purpose m₁, found⟩, hvolume, hbefore =>
    rw [scan_error hvolume, h.scanned before purpose m₁ found hbefore]

/-- After a command for a volume failed, each scan that shows the volume reports it with
    that error, until another command for it fails or succeeds, in every run in which
    no more volumes have failed than there is room for. -/
theorem failure_visible {log before middle after : StorageLog} {m : Memory} {go : Bool}
    {x y : StorageStep} {name : List Char} {fault : Fault} {volume : StorageVolume}
    (h : Served log m go) (hfits : Fits log)
    (hlog : log = before ++ x :: (middle ++ y :: after)) (hx : failureOf x = some (name, fault))
    (hmiddle : ∀ z ∈ middle, LeavesAlone name z) (hvolume : volume ∈ reports y)
    (hname : volume.name = name) : volume.error = some fault := by
  have hrecords :=
    records_kept.served h [] (fun _ => ⟨rfl, fun _ _ _ _ hbefore => by simp at hbefore⟩)
  rw [List.nil_append] at hrecords
  have hsplit : log = (before ++ x :: middle) ++ y :: after := by rw [hlog, List.append_assoc]; rfl
  rw [(hrecords hfits).reports hsplit hvolume, hname]
  exact faultOf_recorded hx hmiddle

instance (name : List Char) : DecidablePred (LeavesAlone name) := fun x =>
  decidable_of_iff ((failureOf x).all (·.1 ≠ name) = true ∧ successOf x ≠ some name) (by
    rw [LeavesAlone, Option.all_eq_true]
    simp)

instance : DecidablePred Fits := fun log =>
  decidable_of_iff (∀ before ∈ log.inits, (recorded before).length ≤ maxStorageVolumes) (by
    simp only [Fits, List.mem_inits])

/-- The failure of a volume that is mounted again is reported in the next scan. -/
theorem failure_visible_reinserted : ∃ volume ∈ reports (serve reinserted 0).1[5],
    volume.name = crowdName 0 ∧ volume.error = some (.mountReturn 32) := by
  have hreported : (reports (serve reinserted 0).1[5]).any
      (fun volume => volume.name == crowdName 0) =
      true := by
    decide +kernel +revert
  obtain ⟨volume, hvolume, hname⟩ := List.any_eq_true.mp hreported
  rw [beq_iff_eq] at hname
  exact ⟨volume, hvolume, hname, failure_visible (serve_served reinserted 0) (by decide +kernel)
    (List.split_at_two (i := 4) (j := 5) (by decide) (by decide +kernel)) (by decide +kernel)
    (by decide +kernel) hvolume hname⟩

/-- The failure of a 33rd volume is not reported. -/
theorem failure_dropped : ∃ log m go before x middle y after name fault volume, Served log m go ∧
    log = before ++ x :: (middle ++ y :: after) ∧ failureOf x = some (name, fault) ∧
      (∀ z ∈ middle, LeavesAlone name z) ∧ volume ∈ reports y ∧ volume.name = name ∧
        volume.error ≠ some fault := by
  have hlength : 105 < (serve swapped 1).1.length := by decide +kernel
  have hreported : (reports (serve swapped 1).1[105]).any
      (fun volume => volume.name == crowdName 32 && volume.error != some (.mountReturn 32)) =
        true := by
    decide +kernel +revert
  obtain ⟨volume, hvolume, hdiffers⟩ := List.any_eq_true.mp hreported
  rw [Bool.and_eq_true, beq_iff_eq, bne_iff_ne] at hdiffers
  exact ⟨_, _, _, _, _, _, _, _, crowdName 32, .mountReturn 32, volume, serve_served swapped 1,
    List.split_at_two (i := 104) (by decide) hlength, by decide +kernel +revert, by decide +kernel,
    hvolume, hdiffers⟩

end MsysHal.Native.Storage

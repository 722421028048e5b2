import MsysHal.Spec.BoundedJson
import MsysHal.Spec.Selection

/-!
# Reading the selection file back

`SelectionStore.save` writes every map that passes `ensure_bounded_json`: up to
128 entries and 128 KiB. `SelectionStore.load` ignores a file with more than 64
entries or more than 64 KiB. Within the limits of the reader the document comes
back as the map that was written.

## Key results

- `load_document`: the entries of a document, read back one by one
- `load_encode_iff`: when the bytes of a map are read back as the map
- `preferences_survive_restart`: the same for every map a manager commits
-/

namespace MsysHal

open Python (Value Runtime)
open Interleave (Pool Label Trace)

namespace SelectionStore

/-! ## The document -/

theorem mem_sortedItems (selections : Selections) (item : String × String) :
    item ∈ sortedItems selections ↔ item ∈ selections.map.items :=
  List.mem_insertionSort _

theorem length_sortedItems (selections : Selections) :
    (sortedItems selections).length = selections.map.size :=
  List.length_insertionSort _ _

theorem nodup_sortedItems (selections : Selections) :
    ((sortedItems selections).map Prod.fst).Nodup := by
  have hperm := (List.perm_insertionSort (fun a b : String × String => a.1 ≤ b.1)
    selections.map.items).map Prod.fst
  exact hperm.nodup_iff.mpr selections.map.nodup

/-- The entries of the document as members of a dict. -/
def entries (items : List (String × String)) : List (Value × Value) :=
  items.map fun item => (.str item.1, .str item.2)

theorem document_eq (selections : Selections) :
    document selections = .dict [(.str "schema", .str "msys.hal.selection.v1"),
      (.str "selections", .dict (entries (sortedItems selections)))] := by
  simp only [document, Value.object, entries, List.map_map, List.map_cons, List.map_nil]
  rfl

private theorem distinctKeys_entries (items : List (String × String))
    (h : (items.map Prod.fst).Nodup) : Python.distinctKeys (entries items) = true := by
  induction items with
  | nil => rfl
  | cons item items ih =>
    rw [List.map_cons, List.nodup_cons] at h
    simp only [entries, List.map_cons, Python.distinctKeys, Bool.and_eq_true, List.all_eq_true]
    refine ⟨?_, ih h.2⟩
    intro m hm
    obtain ⟨item', hmem, rfl⟩ := List.mem_map.mp hm
    have hne : item.1 ≠ item'.1 := fun heq => h.1 (heq ▸ List.mem_map_of_mem hmem)
    simp only [Python.sameKey, Bool.not_eq_true', beq_eq_false_iff_ne]
    exact hne

private theorem loadableMembers_entries (items : List (String × String)) :
    Python.loadableMembers (entries items) = true := by
  induction items with
  | nil => rfl
  | cons item items ih =>
    simp only [entries, List.map_cons, Python.loadableMembers, Python.dumpableKey, Value.loadable,
      Bool.and_true, Bool.true_and]
    exact ih

private theorem heightMembers_entries (items : List (String × String)) :
    Python.heightMembers (entries items) ≤ 1 := by
  induction items with
  | nil => exact Nat.zero_le 1
  | cons item items ih =>
    simp only [entries, List.map_cons, Python.heightMembers, Value.height]
    exact max_le le_rfl ih

/-- `json.loads` reads the written document back. -/
theorem loads_document (rt : Runtime) (hrt : 2 < rt.recursionLimit) (selections : Selections) :
    Python.loads rt ((document selections).text ++ ['\n']) = .ok (document selections) := by
  apply Python.loads_text
  · rw [document_eq]
    simp only [Value.loadable, Python.loadableMembers, Python.dumpableKey, Python.distinctKeys,
      loadableMembers_entries, distinctKeys_entries _ (nodup_sortedItems selections),
      List.all_cons, List.all_nil, Python.sameKey]
    decide
  · rw [document_eq]
    have hheight := heightMembers_entries (sortedItems selections)
    simp only [Value.height, Python.heightMembers]
    omega

/-! ## The entries -/

/-- Valid entries with different names are all taken over. -/
private theorem get?_loadEntries (items : List (String × String))
    (hnodup : (items.map Prod.fst).Nodup)
    (hvalid : ∀ item ∈ items, matchesDomain item.1 = true ∧ matchesComponent item.2 = true)
    (result : Selections) (d : String) :
    (loadEntries (entries items) result).get? d = (items.lookup d).or (result.get? d) := by
  induction items generalizing result with
  | nil => rfl
  | cons item items ih =>
    obtain ⟨name, component⟩ := item
    rw [List.map_cons, List.nodup_cons] at hnodup
    have hhead := hvalid (name, component) List.mem_cons_self
    have hload : loadEntries (entries ((name, component) :: items)) result =
        loadEntries (entries items) (result.set name component hhead.1 hhead.2) := by
      rw [entries, List.map_cons, loadEntries, dif_pos hhead]
      rfl
    rw [hload, ih hnodup.2 fun item hitem => hvalid item (List.mem_cons_of_mem _ hitem),
      Selections.get?_set, List.lookup_cons]
    by_cases hd : d = name
    · subst hd
      have hnone : items.lookup d = none := by
        rw [List.lookup_eq_none_iff]
        intro item hitem
        rw [bne_iff_ne]
        intro heq
        have hmem : item.1 ∈ items.map Prod.fst := List.mem_map_of_mem hitem
        exact hnodup.1 (heq ▸ hmem)
      simp only [hnone, beq_self_eq_true, if_true, Option.none_or, Option.some_or]
    · simp only [beq_eq_false_iff_ne.mpr hd, hd, if_false]

theorem loadDocument_document (selections : Selections) :
    loadDocument (document selections) =
      if selections.map.size > 64 then .empty
      else loadEntries (entries (sortedItems selections)) .empty := by
  have hlen : (entries (sortedItems selections)).length = selections.map.size := by
    rw [entries, List.length_map, length_sortedItems]
  rw [document_eq, ← hlen]
  rfl

/-- A document of at most 64 entries is read back as the map it was made of. -/
theorem load_document (selections : Selections) (h : selections.map.size ≤ 64) (d : String) :
    (loadDocument (document selections)).get? d = selections.get? d := by
  rw [loadDocument_document, if_neg (not_lt.mpr h),
    get?_loadEntries _ (nodup_sortedItems selections)
    fun item hitem => selections.valid item ((mem_sortedItems selections item).mp hitem)]
  have hsort : (sortedItems selections).lookup d = selections.get? d := by
    apply Option.ext
    intro c
    have hsorted := Dict.get?_eq_some_iff
      (⟨sortedItems selections, nodup_sortedItems selections⟩ : Dict String String) d c
    have hitems := Dict.get?_eq_some_iff selections.map d c
    exact hsorted.trans ((mem_sortedItems selections (d, c)).trans hitems.symm)
  have hempty : Selections.empty.get? d = none := rfl
  rw [hsort, hempty, Option.or_none]

/-! ## The file -/

/-- The bytes of a map, when `save` writes it. -/
theorem encode_ok {selections : Selections} {data : ByteArray} (h : encode selections = .ok data) :
    data = (String.ofList ((document selections).text ++ ['\n'])).toUTF8 := by
  rw [encode, Except.bind_eq_ok_iff] at h
  obtain ⟨_, _, h⟩ := h
  exact (Except.ok.inj h).symm

theorem size_encode {selections : Selections} {data : ByteArray}
    (h : encode selections = .ok data) : data.size = (document selections).size + 1 := by
  rw [encode_ok h]
  change (String.ofList _).utf8ByteSize = _
  rw [String.utf8ByteSize_ofList, String.utf8Len_append]
  rfl

/-- What `load` makes of a written file. -/
theorem load_encode (rt : Runtime) (hrt : 2 < rt.recursionLimit) {selections : Selections}
    {data : ByteArray} (h : encode selections = .ok data) :
    load rt (some data) = .ok (if data.size > 64 * 1024 then .empty
      else loadDocument (document selections)) := by
  have hutf8 : String.fromUTF8? data =
      some (String.ofList ((document selections).text ++ ['\n'])) := by
    rw [encode_ok h, Python.fromUTF8?_toUTF8]
  simp only [load, hutf8, String.toList_ofList, loads_document rt hrt]
  split <;> rfl

/-- The document of no preferences is small. -/
private theorem size_document_le (selections : Selections) (h : selections.map.size = 0) :
    (document selections).size + 1 ≤ 64 * 1024 := by
  have hitems : sortedItems selections = [] :=
    List.length_eq_zero_iff.mp ((length_sortedItems selections).trans h)
  rw [document_eq, hitems]
  decide

/-- A written map is read back as that map exactly when it has at most 64 entries
    and its file at most 64 KiB. -/
theorem load_encode_iff (rt : Runtime) (hrt : 2 < rt.recursionLimit) {selections : Selections}
    {data : ByteArray} (h : encode selections = .ok data) :
    (∃ loaded, load rt (some data) = .ok loaded ∧ ∀ d, loaded.get? d = selections.get? d) ↔
      selections.map.size ≤ 64 ∧ (document selections).size + 1 ≤ 64 * 1024 := by
  rw [load_encode rt hrt h, size_encode h]
  constructor
  · rintro ⟨loaded, hload, hget⟩
    rw [Except.ok.injEq] at hload
    subst hload
    by_contra hnot
    -- past a limit of the reader the file counts as empty, the map is not
    have hempty : (if (document selections).size + 1 > 64 * 1024 then Selections.empty
        else loadDocument (document selections)) = .empty := by
      split
      · rfl
      · rw [loadDocument_document, if_pos (by omega)]
    have hpos : selections.map.size ≠ 0 := by
      intro hzero
      exact hnot ⟨by omega, size_document_le selections hzero⟩
    obtain ⟨item, hitem⟩ : ∃ item, item ∈ selections.map.items :=
      List.exists_mem_of_length_pos (Nat.pos_of_ne_zero hpos)
    have hsome := (Dict.get?_eq_some_iff selections.map item.1 item.2).mpr hitem
    have hnone := hget item.1
    rw [hempty] at hnone
    exact nomatch hnone.trans hsome
  · rintro ⟨hsize, hbytes⟩
    refine ⟨_, rfl, fun d => ?_⟩
    rw [if_neg (by omega), load_document selections hsize d]

end SelectionStore

/-! ## Restarts -/

/-- In every run, from any state, the file that a commit has written is read back
    as the map that was committed exactly when the map has at most 64 entries and
    its file at most 64 KiB. -/
theorem preferences_survive_restart (rt : Runtime) (hrt : 2 < rt.recursionLimit)
    (s₀ : ManagerState) (labels : List (Label Job Input))
    (q : Pool managerSig ManagerState PyError Value) (tr : List ManagerEvent)
    (hrun : managerRun rt ⟨s₀, []⟩ labels = some (q, tr)) (e : ManagerEvent) (he : e ∈ tr)
    (hsaved : (committed e).isSome = true) :
    (∃ loaded, SelectionStore.load rt e.after.file = .ok loaded ∧
      ∀ d, loaded.get? d = e.after.selections.get? d) ↔
    e.after.selections.map.size ≤ 64 ∧
      (SelectionStore.document e.after.selections).size + 1 ≤ 64 * 1024 := by
  have hhap : Happens e := Trace.happens _ (Pool.run_trace _ _ hrun) he
  obtain ⟨c, hc⟩ := Option.isSome_iff_exists.mp hsaved
  have hmap : savedMap e = some (e.before.selections.apply c.1) := by rw [savedMap, hc]; rfl
  obtain ⟨hsel, data, henc, hfile⟩ := hhap.savedMap hmap
  rw [hsel, hfile]
  exact SelectionStore.load_encode_iff rt hrt henc

/-- A client selects a provider, and the preference is there after a restart. -/
theorem preferences_survive_restart_one_select : ∃ labels q tr e,
    managerRun Runtime.sample ⟨Sample.start, []⟩ labels = some (q, tr) ∧ e ∈ tr ∧
    (committed e).isSome = true ∧ ∃ loaded,
      SelectionStore.load Runtime.sample e.after.file = .ok loaded ∧
      ∀ d, loaded.get? d = e.after.selections.get? d := by
  have heval : (((Sample.select "a.b:c" (some 0)).program Runtime.sample).finish managerMachine 0
      (Sample.selectInputs "a.b:c") Sample.start).map (fun x => x.2.any fun e =>
        (committed e).isSome && decide (e.after.selections.map.size ≤ 64 ∧
          (SelectionStore.document e.after.selections).size + 1 ≤ 64 * 1024)) = some true := by
    decide +kernel
  obtain ⟨⟨s, tr⟩, hfin, hany⟩ := Option.map_eq_some_iff.mp heval
  obtain ⟨e, he, hcond⟩ := List.any_eq_true.mp hany
  rw [Bool.and_eq_true, decide_eq_true_eq] at hcond
  obtain ⟨ts, hrun, -⟩ := Pool.run_alone managerMachine (Job.program Runtime.sample) [] hfin
  refine ⟨_, _, tr, e, hrun, he, hcond.1, ?_⟩
  exact (preferences_survive_restart Runtime.sample (by decide) Sample.start _ _ tr hrun e he
    hcond.1).mpr hcond.2

namespace Sample

/-- Preferences for the 64 domains `a0`, `a1`, `a2`, `b0` and so on. -/
def full : Selections :=
  SelectionStore.loadEntries
    (SelectionStore.entries ((List.range 64).map fun n =>
      (String.ofList [Char.ofNat (97 + n / 3), Char.ofNat (48 + n % 3)], "a.b:c"))) .empty

/-- The file of these preferences. -/
def fullFile : ByteArray :=
  (String.ofList ((SelectionStore.document full).text ++ ['\n'])).toUTF8

/-- A manager that has loaded them. -/
def fullStart : ManagerState :=
  { start with
    selections := SelectionStore.loadDocument (SelectionStore.document full)
    file := some fullFile }

set_option maxRecDepth 10000 in
theorem encode_full : SelectionStore.encode full = .ok fullFile := by
  have hbound : (ensureBoundedJson (SelectionStore.document full) "HAL provider selection").isOk =
      true := by
    decide
  rw [SelectionStore.encode]
  cases h : ensureBoundedJson (SelectionStore.document full) "HAL provider selection" with
  | error e => rw [h] at hbound; exact nomatch hbound
  | ok u => rfl

set_option maxRecDepth 10000 in
theorem init_fullStart : ManagerState.init Runtime.sample (some fullFile) 30 = .ok fullStart := by
  have hsize : ¬(SelectionStore.document full).size + 1 > 64 * 1024 := by decide
  have hload := SelectionStore.load_encode Runtime.sample (by decide) encode_full
  rw [SelectionStore.size_encode encode_full, if_neg hsize] at hload
  have httl : max 0 (min (30 : ℚ) 60) = 30 := by norm_num
  rw [ManagerState.init, hload, httl]
  rfl

end Sample

set_option maxRecDepth 10000 in
/-- A manager that has loaded 64 preferences commits one for another domain; after
    a restart all of them are gone. -/
theorem preferences_lost_on_restart : ¬∀ (rt : Runtime), 2 < rt.recursionLimit →
    ∀ (file : Option ByteArray) (ttl : ℚ) (s₀ : ManagerState),
    ManagerState.init rt file ttl = .ok s₀ → ∀ (labels : List (Label Job Input))
      (q : Pool managerSig ManagerState PyError Value) (tr : List ManagerEvent),
      managerRun rt ⟨s₀, []⟩ labels = some (q, tr) → ∀ e ∈ tr, (committed e).isSome = true →
      ∃ loaded, SelectionStore.load rt e.after.file = .ok loaded ∧
        ∀ d, loaded.get? d = e.after.selections.get? d := by
  intro hclaim
  have heval : (((Sample.select "a.b:c" none).program Runtime.sample).finish managerMachine 0
      (Sample.selectInputs "a.b:c") Sample.fullStart).map (fun x => x.2.any fun e =>
        (committed e).isSome && decide (e.after.selections.map.size = 65)) = some true := by
    decide +kernel
  obtain ⟨⟨s, tr⟩, hfin, hany⟩ := Option.map_eq_some_iff.mp heval
  obtain ⟨e, he, hcond⟩ := List.any_eq_true.mp hany
  rw [Bool.and_eq_true, decide_eq_true_eq] at hcond
  obtain ⟨ts, hrun, -⟩ := Pool.run_alone managerMachine (Job.program Runtime.sample) [] hfin
  have hload := hclaim Runtime.sample (by decide) _ 30 Sample.fullStart Sample.init_fullStart _ _ tr
    hrun e he hcond.1
  have hhap : Happens e := Trace.happens _ (Pool.run_trace _ _ hrun) he
  obtain ⟨c, hc⟩ := Option.isSome_iff_exists.mp hcond.1
  have hmap : savedMap e = some (e.before.selections.apply c.1) := by rw [savedMap, hc]; rfl
  obtain ⟨hsel, data, henc, hfile⟩ := hhap.savedMap hmap
  rw [hsel, hfile] at hload
  have hsize := ((SelectionStore.load_encode_iff Runtime.sample (by decide) henc).mp hload).1
  rw [← hsel, hcond.2] at hsize
  exact absurd hsize (by decide)

end MsysHal

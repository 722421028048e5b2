import MsysHal.Native.Storage
import MsysHal.Spec.MountPath

/-!
# The mount table of a scan

`storage_mount_for` takes the mount point of the first line with the number of a device. A
line is what fits the buffer of `fgets`, and a mount point is cut to the buffer of the volume
before its escapes are replaced. In a table as the kernel writes it, with lines and mount
points that fit, it is the path of the first row.

## Key results

- `fgetsAll_flatten`: the whole table is read
- `mountFor_shownAt`: what `storage_mount_for` gives
- `shownAt_rows`, `pointOf_mangle`: tables that the kernel writes
-/

namespace MsysHal.Native.Storage

/-! ## Lines -/

theorem fgets_append {capacity : Nat} {line rest : Bytes} (hline : 0x0a ∉ line)
    (hfits : line.length + 1 < capacity) :
    fgets capacity (line ++ 0x0a :: rest) = line ++ [0x0a] := by
  have hstop : (line ++ 0x0a :: rest).takeWhile (· ≠ 0x0a) = line := by
    rw [List.takeWhile_append_of_pos]
    · simp
    · intro b hb
      rw [decide_eq_true_eq]
      rintro rfl
      exact hline hb
  rw [fgets, hstop, Nat.min_eq_left (by omega), List.append_cons]
  exact List.take_left' (by simp)

theorem length_fgets {capacity : Nat} {stream : Bytes} (hcapacity : 2 ≤ capacity)
    (hne : stream ≠ []) : 0 < (fgets capacity stream).length := by
  have hpos := List.length_pos_iff.mpr hne
  rw [fgets, List.length_take]
  omega

/-- The turns take the stream apart, whatever its lines are. -/
theorem fgetsAll_flatten {capacity fuel : Nat} {stream : Bytes} (hcapacity : 2 ≤ capacity)
    (hfuel : stream.length ≤ fuel) : (fgetsAll capacity fuel stream).flatten = stream := by
  induction fuel generalizing stream with
  | zero =>
    rw [List.length_eq_zero_iff.mp (Nat.le_zero.mp hfuel)]
    rfl
  | succ fuel ih =>
    rw [fgetsAll]
    split_ifs with hempty
    · rw [List.isEmpty_iff.mp hempty]
      rfl
    · have hne : stream ≠ [] := fun h => hempty (List.isEmpty_iff.mpr h)
      have hpos := length_fgets hcapacity hne
      have hrest : (stream.drop (fgets capacity stream).length).length ≤ fuel := by
        rw [List.length_drop]
        omega
      rw [List.flatten_cons, ih hrest]
      have hprefix : fgets capacity stream <+: stream := List.take_prefix _ _
      exact (List.prefix_append_drop hprefix).symm

/-! ## Fields -/

theorem lineFields_ne_nul {line field : Bytes} (h : field ∈ lineFields line) : 0 ∉ field := by
  have hpieces : ∀ text : Bytes, ∀ piece ∈ text.splitOnP isSeparator, piece ⊆ text := by
    intro text
    induction text with
    | nil => simp
    | cons b text ih =>
      intro piece hpiece
      rw [List.splitOnP_cons_eq_if_modifyHead] at hpiece
      split_ifs at hpiece
      · cases List.mem_cons.mp hpiece with
        | inl heq => simp [heq]
        | inr hmem => exact fun b hb => List.mem_cons_of_mem _ (ih piece hmem hb)
      · cases hsplit : text.splitOnP isSeparator with
        | nil => exact absurd hsplit (List.splitOnP_ne_nil _ _)
        | cons first pieces =>
          rw [hsplit, List.modifyHead_cons] at hpiece
          rw [hsplit] at ih
          cases List.mem_cons.mp hpiece with
          | inl heq =>
            rw [heq]
            exact List.cons_subset_cons _ (ih first List.mem_cons_self)
          | inr hmem =>
            exact fun b hb => List.mem_cons_of_mem _ (ih piece (List.mem_cons_of_mem _ hmem) hb)
  have hpiece := (List.mem_filter.mp (List.mem_of_mem_take h)).1
  intro hnul
  have hbyte := List.mem_takeWhile_imp (hpieces _ _ hpiece hnul)
  simp at hbyte

/-- The mount point field of a line that shows a device. -/
def pathOf (majorMinor : List Char) (fields : List Bytes) : Option Bytes :=
  if fields.length < 10 ∨ fields[2]?.map charsOf ≠ some majorMinor then none
  else (filesystemOf (fields.drop 6)).bind fun _ => fields[4]?

/-- The mount point field of the first line of a table that shows a device. -/
def shownAt (table : Bytes) (majorMinor : List Char) : Option Bytes :=
  ((fgetsAll 2048 table.length table).map lineFields).findSome? (pathOf majorMinor)

/-- The path in a mount point field, cut to the buffer of a volume before it is decoded. -/
def pointOf (path : Bytes) : List Char :=
  charsOf (cText (unoctal (path.take (storagePathCapacity - 1))))

theorem mountOf_point {majorMinor : List Char} {fields : List Bytes}
    (hfields : ∀ field ∈ fields, 0 ∉ field) :
    (mountOf majorMinor fields).map (·.point) = (pathOf majorMinor fields).map pointOf := by
  rw [mountOf, pathOf]
  split_ifs
  · rfl
  · cases filesystemOf (fields.drop 6) with
    | none => rfl
    | some filesystem =>
      cases hpath : fields[4]? with
      | none => rfl
      | some path =>
        have hclean : 0 ∉ path.take (storagePathCapacity - 1) := fun h =>
          hfields path (List.mem_of_getElem? hpath) (List.mem_of_mem_take h)
        obtain ⟨decoded, hdecode, htext⟩ := decodeMountPath_text hclean []
        simp only [Option.bind_eq_bind, Option.bind_some, hdecode, Option.pure_def, Option.map_some,
          pointOf, htext]

/-- `storage_mount_for` finds no mount where no line shows the device, and else the path in the
    first line that does. -/
theorem mountFor_shownAt (table : Bytes) (majorMinor : List Char) :
    (mountFor (some table) majorMinor).map (·.point) = (shownAt table majorMinor).map pointOf := by
  rw [mountFor, shownAt, Option.bind_some]
  induction fgetsAll 2048 table.length table with
  | nil => rfl
  | cons line lines ih =>
    have hline : (mountOf majorMinor (lineFields line)).map (·.point) =
        (pathOf majorMinor (lineFields line)).map pointOf :=
      mountOf_point fun field hfield => lineFields_ne_nul hfield
    rw [List.map_cons, List.findSome?_cons, List.findSome?_cons]
    cases hmount : mountOf majorMinor (lineFields line) with
    | none =>
      rw [hmount, Option.map_none, eq_comm, Option.map_eq_none_iff] at hline
      rw [hline]
      exact ih
    | some mount =>
      rw [hmount, Option.map_some, eq_comm, Option.map_eq_some_iff] at hline
      obtain ⟨path, hpath, hpoint⟩ := hline
      rw [hpath, Option.map_some, Option.map_some, hpoint]

/-! ## Tables of the kernel -/

/-- A field that `strtok_r` takes as it is. -/
def IsField (field : Bytes) : Prop := field ≠ [] ∧ 0 ∉ field ∧ ∀ b ∈ field, isSeparator b = false

/-- A row that the kernel writes and that fits the buffers of `storage_mount_for`. -/
structure IsRow (fields : List Bytes) : Prop where
  each : ∀ field ∈ fields, IsField field
  count : fields.length ≤ 96
  fits : ([0x20].intercalate fields).length < 2047

/-- The line of a row. -/
def rowText (fields : List Bytes) : Bytes := [0x20].intercalate fields ++ [0x0a]

theorem splitOnP_rowText {fields : List Bytes} (h : ∀ field ∈ fields, IsField field) :
    ((rowText fields).splitOnP isSeparator).filter (!·.isEmpty) = fields := by
  induction fields with
  | nil => rfl
  | cons field fields ih =>
    obtain ⟨hfield, hfields⟩ := List.forall_mem_cons.mp h
    have hkeep (rest : List Bytes) :
        (field :: rest).filter (!·.isEmpty) = field :: rest.filter (!·.isEmpty) := by
      rw [List.filter_cons_of_pos]
      rw [Bool.not_eq_true', List.isEmpty_eq_false_iff]
      exact hfield.1
    have hsplit (rest : Bytes) {sep : UInt8} (hsep : isSeparator sep = true) :
        (field ++ sep :: rest).splitOnP isSeparator = field :: rest.splitOnP isSeparator := by
      rw [List.splitOnP_append_cons _ _ hsep, List.splitOnP_eq_singleton hfield.2.2,
        List.singleton_append]
    cases fields with
    | nil =>
      rw [rowText, List.intercalate_singleton, hsplit [] rfl, hkeep]
      rfl
    | cons next fields =>
      have hcons :
          rowText (field :: next :: fields) = field ++ 0x20 :: rowText (next :: fields) := by
        rw [rowText, List.intercalate_cons_cons, rowText, List.append_assoc, List.append_assoc]
        rfl
      rw [hcons, hsplit _ rfl, hkeep, ih hfields]

theorem mem_rowText {fields : List Bytes} {b : UInt8} (h : b ∈ [0x20].intercalate fields) :
    b = 0x20 ∨ ∃ field ∈ fields, b ∈ field := by
  induction fields with
  | nil => cases h
  | cons field fields ih =>
    cases fields with
    | nil => exact .inr ⟨field, List.mem_singleton_self _, by rwa [List.intercalate_singleton] at h⟩
    | cons next fields =>
      rw [List.intercalate_cons_cons, List.append_assoc, List.mem_append, List.mem_append] at h
      rcases h with h | h | h
      · exact .inr ⟨field, List.mem_cons_self, h⟩
      · exact .inl (List.mem_singleton.mp h)
      · rcases ih h with heq | ⟨other, hother, hb⟩
        · exact .inl heq
        · exact .inr ⟨other, List.mem_cons_of_mem _ hother, hb⟩

theorem lineFields_rowText {fields : List Bytes} (h : IsRow fields) :
    lineFields (rowText fields) = fields := by
  have hclean : 0 ∉ rowText fields := by
    intro hnul
    cases List.mem_append.mp hnul with
    | inl hnul =>
      rcases mem_rowText hnul with heq | ⟨field, hfield, hnul⟩
      · exact absurd heq (by decide)
      · exact (h.each field hfield).2.1 hnul
    | inr hnul => exact absurd hnul (by decide)
  rw [lineFields, cText_of_ne_nul hclean, splitOnP_rowText h.each, List.take_of_length_le h.count]

theorem fgetsAll_rows {rows : List (List Bytes)} (h : ∀ fields ∈ rows, IsRow fields) {fuel : Nat}
    (hfuel : (rows.flatMap rowText).length ≤ fuel) :
    fgetsAll 2048 fuel (rows.flatMap rowText) = rows.map rowText := by
  induction rows generalizing fuel with
  | nil => cases fuel <;> rfl
  | cons fields rows ih =>
    obtain ⟨hrow, hrows⟩ := List.forall_mem_cons.mp h
    rw [List.flatMap_cons, List.length_append] at hfuel
    have hline : 0x0a ∉ [0x20].intercalate fields := by
      intro hnewline
      rcases mem_rowText hnewline with heq | ⟨field, hfield, hnewline⟩
      · exact absurd heq (by decide)
      · exact absurd ((hrow.each field hfield).2.2 _ hnewline) (by decide)
    have hfgets : fgets 2048 (rowText fields ++ rows.flatMap rowText) = rowText fields := by
      have hfits := hrow.fits
      rw [rowText, List.append_assoc]
      exact fgets_append hline (by omega)
    have hpos : 0 < (rowText fields).length := by simp [rowText]
    obtain ⟨fuel, rfl⟩ : ∃ f, fuel = f + 1 := ⟨fuel - 1, by omega⟩
    have hne : (rowText fields ++ rows.flatMap rowText).isEmpty = false := by
      rw [List.isEmpty_eq_false_iff, ← List.length_pos_iff, List.length_append]
      omega
    rw [List.flatMap_cons, fgetsAll, if_neg (by simp [hne]), hfgets, List.map_cons]
    simp only [List.drop_left]
    rw [ih hrows (by omega)]

/-- In a table that the kernel writes, the lookup goes through its rows. -/
theorem shownAt_rows {rows : List (List Bytes)} (h : ∀ fields ∈ rows, IsRow fields)
    (majorMinor : List Char) :
    shownAt (rows.flatMap rowText) majorMinor = rows.findSome? (pathOf majorMinor) := by
  have hfields : (rows.map rowText).map lineFields = rows := by
    rw [List.map_map]
    exact (List.map_congr_left fun fields hmem => lineFields_rowText (h fields hmem)).trans
      (List.map_id rows)
  rw [shownAt, fgetsAll_rows h le_rfl, hfields]

/-- An escaped path that fits is read back. -/
theorem pointOf_mangle {path : Bytes} (hpath : 0 ∉ path)
    (hfits : (mangle path).length < storagePathCapacity) :
    pointOf (mangle path) = charsOf path := by
  rw [pointOf, List.take_of_length_le (by omega), unoctal_mangle, cText_of_ne_nul hpath]

end MsysHal.Native.Storage

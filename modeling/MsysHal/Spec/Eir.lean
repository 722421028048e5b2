import MsysHal.Native.Buffers

/-!
# Names and rows of discovered devices

The name in an EIR and the table of discovered devices, against what they stand for: the
name is a choice among the fields that the EIR starts with, and the table is a map from
addresses to the latest reports, for the first 24 addresses.

## Key results

- `nameFromEir_eq`: the reader stays inside the given length and ends
- `bluetoothNameFromEir_eq`: which name it yields
- `insert_discovered`: a report keeps the table the map of all reports
- `discovery_refines`: every EIR, and every sequence of payloads
-/

namespace MsysHal.Native

/-! ## Fields of an EIR -/

/-- A field: its type and what follows the type. -/
structure EirField where
  type : UInt8
  data : Bytes
deriving DecidableEq, Repr

/-- The bytes of a field: the length of the rest, the type and the data. -/
def EirField.bytes (field : EirField) : Bytes :=
  UInt8.ofNat (field.data.length + 1) :: field.type :: field.data

/-- The bytes start with no field: they are none, the length is zero, or fewer bytes follow. -/
def NoField : Bytes → Prop
  | [] => True
  | n :: rest => n = 0 ∨ rest.length < n.toNat

/-- The fields of the well-formed part that an EIR starts with. -/
def StartsWith (eir : Bytes) (fields : List EirField) : Prop :=
  (∀ field ∈ fields, field.data.length < 255) ∧
    ∃ rest, eir = fields.flatMap EirField.bytes ++ rest ∧ NoField rest

/-- A name as it is shown: 63 bytes at most, with spaces for control characters. -/
def shownName (data : Bytes) : Bytes := (data.take 63).map nameByte

/-- The names of one type that have a byte. -/
def namesOf (type : UInt8) (fields : List EirField) : List Bytes :=
  ((fields.filter (·.type = type)).map (·.data)).filter (!·.isEmpty)

/-- The first complete name, else the last shortened name, else what there is already. -/
def chosenOr (output : Bytes) (fields : List EirField) : Bytes :=
  ((namesOf 0x09 fields).head?.or (namesOf 0x08 fields).getLast?).elim output shownName

/-- The name that a list of fields gives. -/
def chosenName (fields : List EirField) : Bytes := chosenOr [] fields

section Fields

variable {field : EirField} {fields : List EirField} {type : UInt8}

theorem EirField.length_bytes (field : EirField) : field.bytes.length = field.data.length + 2 := by
  simp [EirField.bytes]

theorem namesOf_cons_of_ne (h : field.type ≠ type ∨ field.data = []) :
    namesOf type (field :: fields) = namesOf type fields := by
  rw [namesOf, namesOf]
  by_cases htype : field.type = type
  · simp [htype, h.resolve_left (not_not.mpr htype)]
  · simp [htype]

theorem namesOf_cons_of_eq (htype : field.type = type) (hdata : field.data ≠ []) :
    namesOf type (field :: fields) = field.data :: namesOf type fields := by
  simp [namesOf, htype, hdata]

/-- A complete name is the choice, whatever follows. -/
theorem chosenOr_complete (output : Bytes) (htype : field.type = 0x09) (hdata : field.data ≠ []) :
    chosenOr output (field :: fields) = shownName field.data := by
  rw [chosenOr, namesOf_cons_of_eq htype hdata]
  rfl

/-- A shortened name is the choice where nothing better follows. -/
theorem chosenOr_shortened (output : Bytes) (htype : field.type = 0x08) (hdata : field.data ≠ []) :
    chosenOr output (field :: fields) = chosenOr (shownName field.data) fields := by
  have hne : field.type ≠ 0x09 := by rw [htype]; decide
  rw [chosenOr, chosenOr, namesOf_cons_of_ne (.inl hne), namesOf_cons_of_eq htype hdata,
    List.getLast?_cons]
  cases (namesOf 0x09 fields).head? with
  | some data => rfl
  | none => cases (namesOf 0x08 fields).getLast? <;> rfl

theorem chosenOr_other (output : Bytes)
    (h : (field.type ≠ 0x09 ∧ field.type ≠ 0x08) ∨ field.data = []) :
    chosenOr output (field :: fields) = chosenOr output fields := by
  rw [chosenOr, chosenOr, namesOf_cons_of_ne (h.imp And.left id),
    namesOf_cons_of_ne (h.imp And.right id)]

end Fields

/-- Every EIR starts with fields, up to the first one that is not well formed. -/
theorem startsWith_exists (eir : Bytes) : ∃ fields, StartsWith eir fields := by
  induction hlength : eir.length using Nat.strong_induction_on generalizing eir with
  | h length ih =>
    by_cases hnone : NoField eir
    · exact ⟨[], nofun, eir, rfl, hnone⟩
    · cases eir with
      | nil => exact absurd trivial hnone
      | cons n rest =>
        simp only [NoField, not_or, not_lt] at hnone
        have hn : n.toNat ≠ 0 := fun h => hnone.1 (UInt8.toNat_inj.mp h)
        cases rest with
        | nil => simp at hnone; omega
        | cons type rest =>
          have hle := hnone.2
          have hlt := n.toNat_lt
          simp only [List.length_cons] at hlength hle
          obtain ⟨fields, hdata, rest', hrest, hend⟩ :=
            ih (rest.drop (n.toNat - 1)).length (by rw [List.length_drop]; omega) _ rfl
          have htaken : (rest.take (n.toNat - 1)).length = n.toNat - 1 :=
            List.length_take_of_le (by omega)
          refine ⟨⟨type, rest.take (n.toNat - 1)⟩ :: fields, ?_, rest', ?_, hend⟩
          · rw [List.forall_mem_cons]
            exact ⟨by simp only [htaken]; omega, hdata⟩
          · rw [List.flatMap_cons, List.append_assoc, ← hrest, EirField.bytes]
            simp only [htaken, List.cons_append, List.take_append_drop]
            rw [Nat.sub_add_cancel (by omega), UInt8.ofNat_toNat]

/-! ## The reader -/

/-- A turn of the loop at a field that is well formed. -/
private theorem nameFromFields_field {field : EirField} (hdata : field.data.length < 255)
    (fuel : Nat) (rest output : Bytes) : nameFromFields (fuel + 1) (field.bytes ++ rest) output =
      if (field.type = 0x08 ∨ field.type = 0x09) ∧ field.data ≠ [] then
        if field.type = 0x09 then shownName field.data else nameFromFields fuel rest
          (shownName field.data)
      else nameFromFields fuel rest output := by
  have hn : (UInt8.ofNat (field.data.length + 1)).toNat = field.data.length + 1 :=
    UInt8.toNat_ofNat_of_lt (show field.data.length + 1 < 256 by omega)
  have hzero : UInt8.ofNat (field.data.length + 1) ≠ 0 := by
    intro h
    rw [h] at hn
    exact absurd hn (by simp)
  have hone : UInt8.ofNat (field.data.length + 1) > 1 ↔ field.data ≠ [] := by
    rw [gt_iff_lt, UInt8.lt_iff_toNat_lt, hn, ← List.length_pos_iff]
    simp
  have htaken : (((field.type :: (field.data ++ rest)).take (field.data.length + 1)).drop 1) =
      field.data := by
    simp
  have hleft : (field.type :: (field.data ++ rest)).drop (field.data.length + 1) = rest := by simp
  rw [EirField.bytes, List.cons_append, nameFromFields, hn, List.cons_append, htaken, hleft,
    if_neg (not_or.mpr ⟨hzero, by simp⟩)]
  simp only [hone]
  rfl

private theorem nameFromFields_noField {rest : Bytes} (h : NoField rest) (fuel : Nat)
    (output : Bytes) : nameFromFields fuel rest output = output := by
  cases fuel with
  | zero => rfl
  | succ fuel =>
    cases rest with
    | nil => rfl
    | cons n rest =>
      have hnone : n = 0 ∨ n.toNat > rest.length := h
      rw [nameFromFields, if_pos hnone]

/-- The reader yields the choice, by induction on the fields. -/
private theorem nameFromFields_eq {fields : List EirField} {rest : Bytes} {fuel : Nat}
    (hdata : ∀ field ∈ fields, field.data.length < 255) (hend : NoField rest)
    (hfuel : fields.length ≤ fuel)
    (output : Bytes) : nameFromFields fuel (fields.flatMap EirField.bytes ++ rest) output =
      chosenOr output fields := by
  induction fields generalizing fuel output with
  | nil => exact nameFromFields_noField hend fuel output
  | cons field fields ih =>
    obtain ⟨hfield, hdata⟩ := List.forall_mem_cons.mp hdata
    obtain ⟨fuel, rfl⟩ : ∃ n, fuel = n + 1 := ⟨fuel - 1, by simp at hfuel; omega⟩
    have hle : fields.length ≤ fuel := by simpa using hfuel
    rw [List.flatMap_cons, List.append_assoc, nameFromFields_field hfield]
    by_cases hempty : field.data = []
    · rw [if_neg (by simp [hempty]), ih hdata hle, chosenOr_other output (.inr hempty)]
    · by_cases hcomplete : field.type = 0x09
      · rw [if_pos ⟨.inr hcomplete, hempty⟩, if_pos hcomplete, chosenOr_complete output
          hcomplete hempty]
      · by_cases hshort : field.type = 0x08
        · rw [if_pos ⟨.inl hshort, hempty⟩, if_neg hcomplete, ih hdata hle,
            chosenOr_shortened output hshort hempty]
        · rw [if_neg (by simp [hcomplete, hshort]), ih hdata hle,
            chosenOr_other output (.inl ⟨hcomplete, hshort⟩)]

/-- What `memcpy` takes of a name. -/
private theorem copied_name {eir : Bytes} {position n : Nat} (hposition : position < eir.length)
    (hone : n > 1) (hfits : n + 1 ≤ eir.length - position) :
    copyBytes eir (position + 2) (if n - 1 ≥ 64 then 63 else n - 1) =
      some ((((eir.drop (position + 1)).take n).drop 1).take 63) := by
  have hmin : (if n - 1 ≥ 64 then 63 else n - 1) = min 63 (n - 1) := by
    split <;> omega
  rw [hmin, copyBytes, if_pos (by omega), List.drop_take, List.take_take, List.drop_drop]

/-- The loads of a turn, at any position. -/
private theorem eirName_eq (eir : Bytes) {fuel position : Nat}
    (hfuel : eir.length - position < fuel) (output : Bytes) :
    eirName eir fuel position output = some (nameFromFields fuel (eir.drop position) output) := by
  induction fuel generalizing position output with
  | zero => omega
  | succ fuel ih =>
    rw [eirName]
    by_cases hposition : position < eir.length
    · have hdrop : eir.drop position = eir[position] :: eir.drop (position + 1) :=
        List.drop_eq_getElem_cons hposition
      have hload : eir[position]? = some eir[position] := List.getElem?_eq_getElem hposition
      generalize hn : eir[position] = n at hdrop hload
      rw [if_pos hposition, hload, hdrop, nameFromFields, List.length_drop]
      simp only [Option.bind_eq_bind, Option.bind_some]
      -- The loop ends at an empty field and at one that reaches behind the data.
      by_cases hzero : n = 0
      · simp [hzero]
      · by_cases hlong : n.toNat + 1 > eir.length - position
        · rw [if_neg hzero, if_pos hlong, if_pos (.inr (by omega))]
          rfl
        · have hpos : n.toNat ≠ 0 := fun h => hzero (UInt8.toNat_inj.mp h)
          -- Behind the length there is a type, since the field is not empty.
          have htype : eir[position + 1]? = some ((eir.drop (position + 1)).getD 0 0) := by
            rw [List.getD_eq_getElem?_getD, List.getElem?_drop, List.getElem?_eq_getElem (by omega)]
            rfl
          have hrest : (eir.drop (position + 1)).drop n.toNat =
              eir.drop (position + (n.toNat + 1)) := by
            rw [List.drop_drop]
            congr 1
            omega
          rw [if_neg hzero, if_neg hlong, htype, Option.bind_some,
            if_neg (not_or.mpr ⟨hzero, by omega⟩)]
          have hone : n > 1 ↔ n.toNat > 1 := UInt8.lt_iff_toNat_lt
          simp only [hone, hrest]
          generalize (eir.drop (position + 1)).getD 0 0 = type
          -- Only a name is copied, and only a complete one ends the loop.
          by_cases hname : (type = 0x08 ∨ type = 0x09) ∧ n.toNat > 1
          · rw [if_pos hname, if_pos hname, copied_name hposition hname.2 (by omega),
              Option.bind_some]
            by_cases hcomplete : type = 0x09
            · rw [if_pos hcomplete, if_pos hcomplete]
              rfl
            · rw [if_neg hcomplete, if_neg hcomplete, ih (by omega)]
          · rw [if_neg hname, if_neg hname, ih (by omega)]
    · rw [if_neg hposition, List.drop_of_length_le (by omega), nameFromFields]
      rfl

private theorem length_fields_le (fields : List EirField) :
    fields.length ≤ (fields.flatMap EirField.bytes).length := by
  induction fields with
  | nil => simp
  | cons field fields ih =>
    rw [List.flatMap_cons, List.length_append, List.length_cons, EirField.length_bytes]
    omega

/-- The name is the choice among the fields that the EIR starts with. -/
theorem bluetoothNameFromEir_eq {eir : Bytes} {fields : List EirField} (h : StartsWith eir fields) :
    bluetoothNameFromEir eir = chosenName fields := by
  obtain ⟨hdata, rest, rfl, hend⟩ := h
  have hle := length_fields_le fields
  exact nameFromFields_eq hdata hend (by rw [List.length_append]; omega) []

/-- No load is outside of the given length, and the loop ends. -/
theorem nameFromEir_eq (eir : Bytes) : nameFromEir eir = some (bluetoothNameFromEir eir) := by
  obtain ⟨fields, hfields⟩ := startsWith_exists eir
  rw [nameFromEir, eirName_eq eir (by omega), List.drop_zero, bluetoothNameFromEir_eq hfields]
  obtain ⟨hdata, rest, rfl, hend⟩ := hfields
  have hle := length_fields_le fields
  rw [nameFromFields_eq hdata hend (by rw [List.length_append]; omega)]
  rfl

/-! ## The table -/

/-- The reports of an address. -/
def reportsOf (reports : List BluetoothFound) (address : String) : List BluetoothFound :=
  reports.filter (·.address = address)

/-- What the reports of an address come to: the latest RSSI, the latest name that is not
    empty, and the first address type. -/
def summary (reports : List BluetoothFound) (address : String) : BluetoothFound where
  address := address
  name := (((reportsOf reports address).map (·.name)).filter (!·.isEmpty)).getLast?.getD []
  addressType := ((reportsOf reports address).head?.map (·.addressType)).getD 0
  rssi := ((reportsOf reports address).getLast?.map (·.rssi)).getD 0

/-- The first 24 addresses of the reports, in the order in which they appear. -/
def firstAddresses (reports : List BluetoothFound) : List String :=
  (reports.map (·.address)).eraseDups.take maxBluetoothDiscovered

/-- The map from the first addresses to what their reports come to. -/
def discovered (reports : List BluetoothFound) : List BluetoothFound :=
  (firstAddresses reports).map (summary reports)

section Table

variable {reports : List BluetoothFound} {row : BluetoothFound} {address : String}

theorem discovered_nil : FoundTable.empty.rows = discovered [] := rfl

theorem reportsOf_append_self :
    reportsOf (reports ++ [row]) row.address = reportsOf reports row.address ++ [row] := by
  simp [reportsOf, List.filter_append]

/-- A report changes nothing for other addresses. -/
theorem summary_append_of_ne (h : address ≠ row.address) :
    summary (reports ++ [row]) address = summary reports address := by
  have hsame : reportsOf (reports ++ [row]) address = reportsOf reports address := by
    simp [reportsOf, List.filter_append, h.symm]
  rw [summary, summary, hsame]

/-- A report of a known address updates its row. -/
theorem summary_append_known (h : reportsOf reports row.address ≠ []) :
    summary (reports ++ [row]) row.address =
      (summary reports row.address).update row.name row.rssi := by
  rw [summary, reportsOf_append_self, summary, BluetoothFound.update]
  simp only [List.map_append, List.map_cons, List.map_nil, List.filter_append,
    BluetoothFound.mk.injEq, true_and]
  refine ⟨?_, ?_, ?_⟩
  · by_cases hname : row.name = [] <;> simp [hname]
  · rw [List.head?_append_of_ne_nil _ h]
  · simp

/-- The first report of an address is its row. -/
theorem summary_append_new (h : reportsOf reports row.address = []) :
    summary (reports ++ [row]) row.address = row := by
  rw [summary, reportsOf_append_self, h]
  cases row with
  | mk address name addressType rssi => by_cases hname : name = [] <;> simp [hname]

theorem eraseDups_append_singleton {α : Type} [BEq α] [LawfulBEq α] (l : List α) (a : α)
    [Decidable (a ∈ l)] : (l ++ [a]).eraseDups = l.eraseDups ++ if a ∈ l then [] else [a] := by
  rw [List.eraseDups_append]
  by_cases h : a ∈ l <;> simp [List.removeAll, List.eraseDups_cons, h]

theorem reportsOf_eq_nil_iff : reportsOf reports address = [] ↔
    address ∉ reports.map (·.address) := by
  simp [reportsOf, List.filter_eq_nil_iff]

/-- A known address stays where it is. -/
theorem firstAddresses_known (h : row.address ∈ firstAddresses reports) :
    firstAddresses (reports ++ [row]) = firstAddresses reports := by
  have hmem : row.address ∈ reports.map (·.address) :=
    List.mem_eraseDups.mp (List.mem_of_mem_take h)
  rw [firstAddresses, List.map_append, List.map_cons, List.map_nil, eraseDups_append_singleton,
    if_pos hmem, List.append_nil, firstAddresses]

/-- There is no place for one more address. -/
theorem firstAddresses_full (h : maxBluetoothDiscovered ≤ (firstAddresses reports).length) :
    firstAddresses (reports ++ [row]) = firstAddresses reports := by
  rw [firstAddresses, List.length_take] at h
  rw [firstAddresses, List.map_append, List.map_cons, List.map_nil, eraseDups_append_singleton,
    List.take_append_of_le_length (by omega), firstAddresses]

/-- A new address goes to the end. -/
theorem firstAddresses_new (h : row.address ∉ firstAddresses reports)
    (hroom : (firstAddresses reports).length < maxBluetoothDiscovered) :
    row.address ∉ reports.map (·.address) ∧
      firstAddresses (reports ++ [row]) = firstAddresses reports ++ [row.address] := by
  have hall : firstAddresses reports = (reports.map (·.address)).eraseDups := by
    rw [firstAddresses, List.length_take] at hroom
    rw [firstAddresses, List.take_of_length_le (by omega)]
  have hmem : row.address ∉ reports.map (·.address) := by
    rw [hall, List.mem_eraseDups] at h
    exact h
  refine ⟨hmem, ?_⟩
  rw [firstAddresses, List.map_append, List.map_cons, List.map_nil, eraseDups_append_singleton,
    if_neg hmem, ← hall, List.take_of_length_le]
  rw [List.length_append, List.length_singleton]
  omega

/-- One report keeps the table the map of all reports. -/
theorem insert_discovered {table : FoundTable} (h : table.rows = discovered reports) :
    (table.insert row).rows = discovered (reports ++ [row]) := by
  have haddresses : table.rows.map (·.address) = firstAddresses reports := by
    rw [h, discovered, List.map_map]
    exact List.map_id' _
  have hlength : table.rows.length = (firstAddresses reports).length := by
    rw [← haddresses, List.length_map]
  rw [FoundTable.insert]
  split
  -- The address has a row, which takes the report in.
  · next hknown =>
    rw [haddresses] at hknown
    have hmem : row.address ∈ reports.map (·.address) :=
      List.mem_eraseDups.mp (List.mem_of_mem_take hknown)
    have hreports : reportsOf reports row.address ≠ [] :=
      fun hnil => reportsOf_eq_nil_iff.mp hnil hmem
    simp only
    rw [h, discovered, discovered, firstAddresses_known hknown, List.map_map]
    apply List.map_congr_left
    intro address _
    by_cases heq : address = row.address
    · rw [heq, summary_append_known hreports]
      simp [summary]
    · rw [summary_append_of_ne heq]
      simp [summary, heq]
  · next hknown =>
    rw [haddresses] at hknown
    split
    -- The table is full: the report is dropped.
    · next hfull =>
      rw [h, discovered, discovered, firstAddresses_full (by omega)]
      apply List.map_congr_left
      intro address haddress
      rw [summary_append_of_ne]
      exact fun heq => hknown (heq ▸ haddress)
    · next hfull =>
      -- The address gets the last row.
      obtain ⟨hmem, hfirst⟩ := firstAddresses_new hknown (by omega)
      simp only
      rw [h, discovered, discovered, hfirst, List.map_append, List.map_cons, List.map_nil,
        summary_append_new (reportsOf_eq_nil_iff.mpr hmem)]
      congr 1
      apply List.map_congr_left
      intro address haddress
      rw [summary_append_of_ne]
      exact fun heq => hknown (heq ▸ haddress)

/-- Every sequence of payloads, by induction on it. -/
theorem foldl_discovered (payloads : List Bytes) {table : FoundTable}
    (h : table.rows = discovered reports) :
    (payloads.foldl rememberBluetoothFound table).rows =
      discovered (reports ++ payloads.filterMap foundRow) := by
  induction payloads generalizing table reports with
  | nil => simpa using h
  | cons payload payloads ih =>
    rw [List.foldl_cons, rememberBluetoothFound]
    cases hrow : foundRow payload with
    | none =>
      rw [List.filterMap_cons_none hrow]
      exact ih h
    | some row =>
      rw [List.filterMap_cons_some hrow, ← List.singleton_append, ← List.append_assoc]
      exact ih (insert_discovered h)

end Table

/-- For every EIR: the reader ends, with no load outside of the given length, and yields
    the choice among the fields that the EIR starts with. For every sequence of payloads:
    the table is the map from the first 24 addresses to what their reports come to. -/
theorem discovery_refines (eir : Bytes) (payloads : List Bytes) :
    (∃ fields, StartsWith eir fields) ∧
    (∀ fields, StartsWith eir fields → nameFromEir eir = some (chosenName fields)) ∧
    (payloads.foldl rememberBluetoothFound .empty).rows = discovered (payloads.filterMap foundRow) ∧
    ((payloads.foldl rememberBluetoothFound .empty).rows.map (·.address)).Nodup ∧
    (payloads.foldl rememberBluetoothFound .empty).rows.length ≤ maxBluetoothDiscovered := by
  have htable := foldl_discovered payloads discovered_nil
  refine ⟨startsWith_exists eir, fun fields h => ?_, htable, ?_, ?_⟩
  · rw [nameFromEir_eq, bluetoothNameFromEir_eq h]
  · exact (payloads.foldl rememberBluetoothFound .empty).distinct
  · exact (payloads.foldl rememberBluetoothFound .empty).bounded

/-- A shortened name and a complete one, before a length that does not fit. -/
theorem complete_name_chosen :
    nameFromEir [2, 0x08, 0x41, 3, 0x09, 0x42, 0x07, 9, 0x09] = some [0x42, 0x20] :=
  (discovery_refines [2, 0x08, 0x41, 3, 0x09, 0x42, 0x07, 9, 0x09] []).2.1
    [⟨0x08, [0x41]⟩, ⟨0x09, [0x42, 0x07]⟩] ⟨by decide, [9, 0x09], rfl, .inr (by decide)⟩

/-- A complete name without a byte is passed over for the next one. -/
theorem empty_name_skipped : ¬ ∀ eir fields field, StartsWith eir fields →
    fields.find? (·.type = 0x09) = some field → nameFromEir eir = some (shownName field.data) := by
  intro h
  have hstarts : StartsWith [1, 0x09, 2, 0x09, 0x41] [⟨0x09, []⟩, ⟨0x09, [0x41]⟩] :=
    ⟨by decide, [], rfl, trivial⟩
  have hname := h _ _ ⟨0x09, []⟩ hstarts rfl
  exact absurd hname (by decide)

end MsysHal.Native

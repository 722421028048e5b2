import MsysHal.ForStd.List
import MsysHal.Native.Power
import MsysHal.Python.Linux
import MsysHal.Python.Radios

/-!
# What an enumeration of a directory lists

The three enumerators keep at most a number of entries. The radios and the native
service count the entries that qualify, and list all of them when there are no
more than the limit. The Linux providers count the entries of the directory by
name, and an entry that qualifies is not listed when enough others stand before it.

## Key results

- `limitedEntries_exact`, `entryNames_exact`: the enumerators that filter first
- `entries_exact_iff`: when the Linux enumerator lists what qualifies
- `enumeration_exact`: the three of them
-/

namespace MsysHal

open Network (DirEntry limitedEntries)

/-- A listing is what qualifies, sorted by the key. -/
structure ExactListing {α κ : Type} [LE κ] (key : α → κ) (qualifying listing : List α) : Prop where
  perm : listing.Perm qualifying
  ordered : listing.Pairwise fun a b => key a ≤ key b

theorem sortStrings_exact (names : List String) : ExactListing id names (sortStrings names) where
  perm := List.perm_insertionSort _ names
  ordered := List.pairwise_insertionSort (· ≤ ·) names

/-! ## Filters first -/

theorem limitedEntries_exact {limit : Nat} {items : List DirEntry}
    (h : (items.filterMap DirEntry.qualifying).length ≤ limit) :
    ExactListing id (items.filterMap DirEntry.qualifying) (limitedEntries limit (some items)) := by
  have hall : limitedEntries limit (some items) =
      sortStrings (items.filterMap DirEntry.qualifying) := by
    simp only [limitedEntries]
    rw [List.take_of_length_le h]
  rw [hall]
  exact sortStrings_exact _

/-- What qualifies for `list_entries`. -/
def Native.qualifying (start : String) (items : List (String × Bool)) : List String :=
  (items.filter fun entry =>
    validName entry.1 && start.toList.isPrefixOf entry.1.toList && entry.2).map Prod.fst

theorem Native.entryNames_exact {start : String} {items : List (String × Bool)}
    (h : (qualifying start items).length ≤ maxEntries) :
    ExactListing id (qualifying start items) (entryNames start (some items)) := by
  have hall : entryNames start (some items) = sortStrings (qualifying start items) := by
    simp only [entryNames]
    exact congrArg sortStrings (List.take_of_length_le h)
  rw [hall]
  exact sortStrings_exact _

/-! ## Truncates first -/

/-- A directory: no name stands there twice. -/
structure Directory where
  items : List Entry
  distinct : (items.map (·.name)).Nodup

/-- The entry has a valid name, one of the prefixes if there are any, and is a directory. -/
def Entry.Qualifies (prefixes : List String) (entry : Entry) : Prop :=
  ∃ name, entryName entry.name = some name ∧
    (prefixes = [] ∨ ∃ p ∈ prefixes, p.toList <+: name.1.toList) ∧ entry.isDir = some true

theorem findEntry_isSome {prefixes : List String} {entry : Entry} :
    (findEntry prefixes entry).isSome = true ↔ entry.Qualifies prefixes := by
  unfold findEntry Entry.Qualifies
  cases hname : entryName entry.name with
  | none => simp
  | some name =>
    have hprefix : (!prefixes.isEmpty && !prefixes.any fun p => p.toList.isPrefixOf name.1.toList) =
        false ↔ prefixes = [] ∨ ∃ p ∈ prefixes, p.toList <+: name.1.toList := by
      simp only [Bool.and_eq_false_iff, Bool.not_eq_false', List.isEmpty_iff, List.any_eq_true,
        List.isPrefixOf_iff_prefix]
    simp only [Option.some.injEq, exists_eq_left', ← hprefix]
    split
    next htrue => simp [htrue]
    next hfalse =>
      rw [Bool.not_eq_true] at hfalse
      by_cases hdir : entry.isDir = some true
      · simp [hfalse, hdir]
      · simp [hdir]

theorem findEntry_entry {prefixes : List String} {entry : Entry} {found : Found}
    (h : findEntry prefixes entry = some found) : found.entry = entry := by
  unfold findEntry at h
  split at h
  · cases h
  · split_ifs at h
    cases h
    rfl

instance (prefixes : List String) : DecidablePred (Entry.Qualifies prefixes) := fun entry =>
  decidable_of_iff ((findEntry prefixes entry).isSome = true) findEntry_isSome

theorem findEntry_guard (prefixes : List String) :
    (fun entry => (findEntry prefixes entry).map (·.entry)) =
      Option.guard fun entry => decide (Entry.Qualifies prefixes entry) := by
  funext entry
  cases hfound : findEntry prefixes entry with
  | none =>
    have hq : ¬ entry.Qualifies prefixes := by rw [← findEntry_isSome, hfound]; simp
    simp [Option.guard, hq]
  | some found =>
    have hq : entry.Qualifies prefixes := by rw [← findEntry_isSome, hfound]; rfl
    simp [Option.guard, hq, findEntry_entry hfound]

/-- The entries that `_entries` returns. -/
def Directory.listed (d : Directory) (prefixes : List String) : List Entry :=
  (entries (some d.items) prefixes).map (·.entry)

/-- The entries that qualify. -/
def Directory.qualifying (d : Directory) (prefixes : List String) : List Entry :=
  d.items.filter (Entry.Qualifies prefixes ·)

theorem Directory.listed_eq (d : Directory) (prefixes : List String) :
    d.listed prefixes = ((d.items.insertionSort fun a b => a.name ≤ b.name).take 128).filterMap
      fun entry => (findEntry prefixes entry).map (·.entry) := by
  simp only [listed, entries, List.map_filterMap]

/-- The Linux enumerator lists what qualifies exactly when each entry that qualifies
    is among the first 128 names of the directory. -/
theorem Directory.listed_exact_iff (d : Directory) (prefixes : List String) :
    ExactListing Entry.name (d.qualifying prefixes) (d.listed prefixes) ↔
      ∀ entry ∈ d.qualifying prefixes, d.items.countP (·.name < entry.name) < 128 := by
  have hordered : (d.listed prefixes).Pairwise fun a b => a.name ≤ b.name := by
    rw [listed_eq, findEntry_guard, List.filterMap_eq_filter]
    have hsorted := (List.pairwise_lt_insertionSort Entry.name d.distinct).imp le_of_lt
    exact (hsorted.sublist (List.take_sublist 128 _)).filter _
  have hqualifying : d.qualifying prefixes =
      d.items.filterMap fun entry => (findEntry prefixes entry).map (·.entry) := by
    rw [findEntry_guard, List.filterMap_eq_filter, qualifying]
  have hperm := List.filterMap_take_insertionSort_perm Entry.name
    (fun entry => (findEntry prefixes entry).map (·.entry)) d.distinct 128
  rw [← listed_eq, ← hqualifying] at hperm
  simp only [Option.isSome_map, findEntry_isSome] at hperm
  constructor
  · intro h entry hentry
    rw [qualifying, List.mem_filter, decide_eq_true_eq] at hentry
    convert hperm.mp h.perm entry hentry.1 hentry.2
  · intro h
    refine ⟨hperm.mpr fun entry hmem hq => ?_, hordered⟩
    convert h entry (List.mem_filter.mpr ⟨hmem, decide_eq_true hq⟩)

/-! ## The three enumerators -/

/-- When there are no more entries that qualify than its limit, an enumerator lists
    exactly those, sorted: the radios and the native service in every directory, the
    Linux providers exactly where each of them is among the first 128 names. -/
theorem enumeration_exact (d : Directory) (prefixes : List String) :
    (∀ (limit : Nat) (items : List DirEntry),
      (items.filterMap DirEntry.qualifying).length ≤ limit →
        ExactListing id (items.filterMap DirEntry.qualifying) (limitedEntries limit (some items))) ∧
    (∀ (start : String) (items : List (String × Bool)),
      (Native.qualifying start items).length ≤ Native.maxEntries →
        ExactListing id (Native.qualifying start items) (Native.entryNames start (some items))) ∧
    (((d.qualifying prefixes).length ≤ 128 →
        ExactListing Entry.name (d.qualifying prefixes) (d.listed prefixes)) ↔
      ((d.qualifying prefixes).length ≤ 128 →
        ∀ entry ∈ d.qualifying prefixes, d.items.countP (·.name < entry.name) < 128)) :=
  ⟨fun _ _ => limitedEntries_exact, fun _ _ => Native.entryNames_exact,
    imp_congr_right fun _ => d.listed_exact_iff prefixes⟩

/-! ## A crowded thermal class -/

/-- The directory of a device. -/
def deviceEntry (name : List Nat) : Entry := ⟨name, some true, fun _ => none, fun _ => false⟩

/-- `thermal_zone0`. -/
def zoneName : List Nat := [116, 104, 101, 114, 109, 97, 108, 95, 122, 111, 110, 101, 48]

/-- `cooling` and a number of three digits. -/
def coolingName (i : Nat) : List Nat :=
  [99, 111, 111, 108, 105, 110, 103, 48 + i / 100, 48 + i / 10 % 10, 48 + i % 10]

theorem coolingName_injective : Function.Injective coolingName := by
  intro i j h
  simp only [coolingName, List.cons.injEq, Nat.add_left_cancel_iff, and_true, true_and] at h
  omega

/-- A thermal zone beside cooling devices. -/
def thermalClass (cooling : Nat) : Directory where
  items := deviceEntry zoneName :: (List.range cooling).map fun i => deviceEntry (coolingName i)
  distinct := by
    simp only [List.map_cons, List.map_map, List.nodup_cons, List.mem_map, List.mem_range]
    refine ⟨?_, (List.nodup_range).map coolingName_injective⟩
    rintro ⟨i, -, hi⟩
    cases hi

theorem cooling_not_qualifies (i : Nat) :
    ¬ (deviceEntry (coolingName i)).Qualifies ["thermal_zone"] := by
  rintro ⟨name, hname, hprefix, -⟩
  have htext : name.1.toList = (coolingName i).map Char.ofNat := by
    simp only [entryName] at hname
    split at hname
    · cases hname
      exact String.toList_ofList
    · cases hname
  rcases hprefix with hnil | ⟨p, hp, hprefix⟩
  · cases hnil
  · rw [List.mem_singleton.mp hp, htext] at hprefix
    exact absurd (List.IsPrefix.head hprefix (by decide)) (show ¬ 't' = 'c' by decide)

theorem thermalClass_qualifying (cooling : Nat) :
    (thermalClass cooling).qualifying ["thermal_zone"] = [deviceEntry zoneName] := by
  have hzone : (deviceEntry zoneName).Qualifies ["thermal_zone"] := by decide +kernel
  simp only [Directory.qualifying, thermalClass]
  rw [List.filter_cons_of_pos (by exact decide_eq_true hzone), List.filter_eq_nil_iff.mpr]
  intro entry hentry
  obtain ⟨i, -, rfl⟩ := List.mem_map.mp hentry
  simpa using cooling_not_qualifies i

theorem thermalClass_before (cooling : Nat) :
    (thermalClass cooling).items.countP (·.name < zoneName) = cooling := by
  have hall : ∀ i, coolingName i < zoneName := fun i => List.Lex.rel (by decide)
  simp only [thermalClass, deviceEntry, List.countP_cons, List.countP_map]
  rw [List.countP_eq_length.mpr (by simpa using fun i _ => hall i)]
  simp

/-- The only zone of the class is not listed beside 128 cooling devices. -/
theorem enumeration_drops_zone :
    ((thermalClass 128).qualifying ["thermal_zone"]).length = 1 ∧
      ¬ ExactListing Entry.name ((thermalClass 128).qualifying ["thermal_zone"])
        ((thermalClass 128).listed ["thermal_zone"]) := by
  rw [Directory.listed_exact_iff, thermalClass_qualifying]
  refine ⟨rfl, fun h => ?_⟩
  have hlt := h _ (List.mem_singleton.mpr rfl)
  rw [show (deviceEntry zoneName).name = zoneName from rfl, thermalClass_before] at hlt
  exact absurd hlt (lt_irrefl 128)

end MsysHal

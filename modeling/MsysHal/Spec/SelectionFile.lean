import MsysHal.ForStd.JsonMachine
import MsysHal.Python.ManagerState

/-!
# A damaged selection file

`SelectionStore.load` ignores a file that it cannot read, that is too large, that is
not UTF-8, that is no JSON or that has another shape, and drops the entries outside the
two grammars. It catches a `JSONDecodeError` and no other exception of `json.loads`, so
a file with an integer literal that is too long, or with containers nested past the
recursion limit, keeps the manager from starting.

## Key results

- `selection_file_ignored`: the manager starts with valid preferences if and only if
  the scan of the file does not get to such a place
-/

namespace MsysHal

open Python (Value Runtime ReachesOverlong ReachesTooDeep)

namespace SelectionStore

/-- The text of a file that `load` gives to `json.loads`: there is none when the file
    cannot be read, is too large or is not UTF-8. -/
def decodedText : Option ByteArray → Option String
  | none => none
  | some data => if data.size > 64 * 1024 then none else String.fromUTF8? data

theorem load_eq (rt : Runtime) (file : Option ByteArray) :
    load rt file =
      match decodedText file with
      | none => .ok .empty
      | some text =>
        match Python.loads rt text.toList with
        | .ok value => .ok (loadDocument value)
        | .error .decodeError => .ok .empty
        | .error e => .error (loadsException e) := by
  cases file with
  | none => rfl
  | some data =>
    simp only [load, decodedText]
    split
    · rfl
    · cases String.fromUTF8? data <;> rfl

/-- `load` passes on the exceptions of `json.loads` that are no `JSONDecodeError`. -/
theorem load_raises_iff (rt : Runtime) (file : Option ByteArray) (error : PyError) :
    load rt file = .error error ↔
      ∃ text, decodedText file = some text ∧
        ((ReachesOverlong rt text.toList ∧ error = loadsException .valueError) ∨
          (ReachesTooDeep rt text.toList ∧ error = loadsException .recursionError)) := by
  rw [load_eq]
  cases hd : decodedText file with
  | none => simp
  | some text =>
    simp only [Option.some.injEq, exists_eq_left', ← Python.loads_valueError_iff,
      ← Python.loads_recursionError_iff]
    cases Python.loads rt text.toList with
    | ok value => simp
    | error e => cases e <;> simp [eq_comm]

/-- A file whose text gets to neither of the two places is loaded. -/
theorem load_returns_iff (rt : Runtime) (file : Option ByteArray) :
    (∃ selections, load rt file = .ok selections) ↔
      ∀ text, decodedText file = some text →
        ¬ReachesOverlong rt text.toList ∧ ¬ReachesTooDeep rt text.toList := by
  cases hload : load rt file with
  | ok selections =>
    simp only [Except.ok.injEq, exists_eq', true_iff]
    intro text htext
    have hraise : ∀ error, load rt file ≠ .error error := by simp [hload]
    constructor
    · intro hlong
      exact hraise _ ((load_raises_iff rt file _).mpr ⟨text, htext, .inl ⟨hlong, rfl⟩⟩)
    · intro hdeep
      exact hraise _ ((load_raises_iff rt file _).mpr ⟨text, htext, .inr ⟨hdeep, rfl⟩⟩)
  | error error =>
    simp only [reduceCtorEq, exists_false, false_iff]
    intro h
    obtain ⟨text, htext, hraise⟩ := (load_raises_iff rt file error).mp hload
    cases hraise with
    | inl hlong => exact (h text htext).1 hlong.1
    | inr hdeep => exact (h text htext).2 hdeep.1

end SelectionStore

open SelectionStore (decodedText)

/-- The manager starts over a selection file, with preferences of which every domain and
    every component matches its grammar, if and only if no scan of the file gets to an
    integer literal that is too long or past the recursion limit. -/
theorem selection_file_ignored (rt : Runtime) (file : Option ByteArray) (ttl : ℚ) :
    (∃ selections start, SelectionStore.load rt file = .ok selections ∧
        (∀ item ∈ selections.map.items,
          matchesDomain item.1 = true ∧ matchesComponent item.2 = true) ∧
        ManagerState.init rt file ttl = .ok start ∧ start.selections = selections) ↔
      ∀ text, decodedText file = some text →
        ¬ReachesOverlong rt text.toList ∧ ¬ReachesTooDeep rt text.toList := by
  rw [← SelectionStore.load_returns_iff]
  constructor
  · rintro ⟨selections, start, hload, -, -, -⟩
    exact ⟨selections, hload⟩
  · rintro ⟨selections, hload⟩
    have hinit : ∃ start, ManagerState.init rt file ttl = .ok start ∧
        start.selections = selections := by
      rw [ManagerState.init, hload]
      exact ⟨_, rfl, rfl⟩
    obtain ⟨start, hstart, hselections⟩ := hinit
    exact ⟨selections, start, hload, selections.valid, hstart, hselections⟩

namespace Sample

/-- An integer literal of `n` digits. -/
def literal (n : Nat) : String := String.ofList (List.replicate n '1')

theorem size_literal (n : Nat) : (literal n).toUTF8.size = n := by
  change (String.ofList (List.replicate n '1')).utf8ByteSize = n
  rw [String.utf8ByteSize_ofList]
  induction n with
  | zero => rfl
  | succ n ih =>
    rw [List.replicate_succ, String.utf8Len_cons, ih]
    rfl

theorem decodedText_literal {n : Nat} (h : n ≤ 64 * 1024) :
    decodedText (some (literal n).toUTF8) = some (literal n) := by
  rw [decodedText, if_neg (by rw [size_literal]; omega), Python.fromUTF8?_toUTF8]

theorem scanDigits_replicate (n : Nat) :
    Python.scanDigits (List.replicate (n + 1) '1') = some (List.replicate (n + 1) '1', []) := by
  have hdigit : ∀ c ∈ List.replicate (n + 1) '1', c.isDigit = true := by
    intro c hc
    rw [List.eq_of_mem_replicate hc]
    decide
  have htake := List.takeWhile_eq_self_iff.mpr hdigit
  have hdrop := List.dropWhile_eq_nil_iff.mpr hdigit
  rw [List.replicate_succ] at htake hdrop ⊢
  rw [Python.scanDigits, if_pos (by decide), htake, hdrop]
  simp

/-- The scan of a literal with too many digits starts at it. -/
theorem reaches_literal (rt : Runtime) {n : Nat} (h : Python.maxStrDigits < n) :
    ReachesOverlong rt (literal n).toList := by
  obtain ⟨n, rfl⟩ : ∃ m, n = m + 1 := ⟨n - 1, by omega⟩
  have hskip : Python.skipWs (literal (n + 1)).toList = List.replicate (n + 1) '1' := by
    rw [literal, String.toList_ofList, Python.skipWs, List.replicate_succ, List.dropWhile_cons,
      if_neg (by decide)]
  have hunsigned : Python.unsigned (List.replicate (n + 1) '1') = List.replicate (n + 1) '1' := rfl
  have hlong : Python.overlongLiteral (List.replicate (n + 1) '1') = true := by
    rw [Python.overlongLiteral, hunsigned, scanDigits_replicate]
    simp [Python.scanFraction, Python.scanExponent, h]
  refine ⟨Python.startPlace (literal (n + 1)).toList, .refl, ?_⟩
  rw [Python.startPlace, hskip]
  exact hlong

end Sample

/-- A file with an integer literal that is too long is not ignored: `load` raises, and so
    does the constructor of the manager. -/
theorem selection_file_raises :
    ∃ error, SelectionStore.load Runtime.sample (some (Sample.literal 4301).toUTF8) = .error error ∧
      ManagerState.init Runtime.sample (some (Sample.literal 4301).toUTF8) 30 = .error error := by
  have hload :=
    (SelectionStore.load_raises_iff Runtime.sample (some (Sample.literal 4301).toUTF8) _).mpr
    ⟨_, Sample.decodedText_literal (by decide), .inl ⟨Sample.reaches_literal _ (by decide), rfl⟩⟩
  refine ⟨_, hload, ?_⟩
  rw [ManagerState.init, hload]
  rfl

end MsysHal

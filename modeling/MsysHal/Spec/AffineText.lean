import MsysHal.Python.ExactFloats
import MsysHal.Spec.Affine

/-!
# A matrix and its text

The coefficients of an affine matrix are written with twelve significant digits,
and the reader checks what it reads as a matrix of its own. The bounds of single
coefficients survive the rounding. What is checked of several coefficients
together, the corners of the panel and the determinant, is checked again of the
rounded ones, and a matrix near these bounds can be refused in its own text.

## Key results

- `affine_text_exact`: the matrices that survive their text
- `affine_text_refused`: an accepted matrix that does not
-/

namespace MsysHal.Ch347

open Python (Value PyFloat)

/-! ## The checks of a matrix -/

/-- A matrix that passed `_validated_affine`. -/
def Validated (m : Affine) : Prop :=
  ∃ value label, validatedAffine exactFloats value label = .ok m

/-- The checks on the nine numbers. -/
private theorem checkAffine_iff {label : String} {m m' : Affine} (hm : ∀ x ∈ m.toList, |x| ≤ 4) :
    checkAffine exactFloats label m = .ok m' ↔ Bounded m ∧ Safe m ∧ m = m' := by
  have hround : ∀ x, exactFloats.round x = x := fun _ => rfl
  have hexact : ∀ a b c x y, mapped exactFloats a b c x y = a * x + b * y + c :=
    fun _ _ _ _ _ => rfl
  have hinside : ∀ x y, mapsInside exactFloats m (x, y) = true ↔
      ((-1 : ℚ) ≤ m[0] * x + m[1] * y + m[2] ∧ m[0] * x + m[1] * y + m[2] ≤ 2) ∧
        (-1 : ℚ) ≤ m[3] * x + m[4] * y + m[5] ∧ m[3] * x + m[4] * y + m[5] ≤ 2 := by
    intro x y
    simp only [mapsInside, Bool.and_eq_true, decide_eq_true_eq, hexact]
    constructor
    · rintro ⟨⟨⟨h₁, h₂⟩, h₃⟩, h₄⟩
      exact ⟨⟨h₂, h₁⟩, h₄, h₃⟩
    · rintro ⟨⟨h₁, h₂⟩, h₃, h₄⟩
      exact ⟨⟨⟨h₂, h₁⟩, h₄⟩, h₃⟩
  have hcorners :
      (([(0, 0), (1, 0), (0, 1), (1, 1)] : List (ℚ × ℚ)).all (mapsInside exactFloats m)) = true ↔
      (((-1 : ℚ) ≤ m[2] ∧ m[2] ≤ 2) ∧ (-1 : ℚ) ≤ m[5] ∧ m[5] ≤ 2) ∧ RowInside m[0] m[1] m[2] ∧
        RowInside m[3] m[4] m[5] := by
    simp only [List.all_cons, List.all_nil, Bool.and_true, Bool.and_eq_true, hinside, mul_zero,
      mul_one, zero_add, add_zero, RowInside, List.forall_mem_cons, List.not_mem_nil,
      IsEmpty.forall_iff, implies_true, and_true]
    tauto
  simp only [checkAffine, Except.ite_error_eq_ok_iff, Bool.not_eq_true', Bool.not_eq_false,
    hcorners, Bool.or_eq_true, decide_eq_true_eq, hround, not_or, not_lt, Except.ok.injEq]
  constructor
  · rintro ⟨⟨⟨h₆, h₇⟩, h₈⟩, hdet, ⟨horigin, hx, hy⟩, rfl⟩
    exact ⟨⟨hm, ⟨h₆, h₇, h₈⟩, horigin⟩, ⟨hx, hy, hdet⟩, rfl⟩
  · rintro ⟨⟨-, ⟨h₆, h₇, h₈⟩, horigin⟩, ⟨hx, hy, hdet⟩, rfl⟩
    exact ⟨⟨⟨h₆, h₇⟩, h₈⟩, hdet, ⟨horigin, hx, hy⟩, rfl⟩

private theorem affineNumber_bound {label : String} {item : Value} {x : ℚ}
    (h : affineNumber exactFloats label item = .ok x) : |x| ≤ 4 := by
  have hfinite : ∀ y : ℚ, (if -4 ≤ y ∧ y ≤ 4 then Except.ok y
      else .error (PyError.hal (.validation s!"{label} contains an unsafe value"))) = Except.ok x →
      |x| ≤ 4 := by
    intro y hy
    split at hy
    · next hbound =>
      cases hy
      exact abs_le.mpr hbound
    · exact nomatch hy
  cases item with
  | int n => exact hfinite n h
  | float f =>
    cases f with
    | nonFinite => exact nomatch h
    | finite y text => exact hfinite y h
  | _ => exact nomatch h

/-- An accepted matrix passed all checks. -/
theorem Validated.bounded_safe {m : Affine} (h : Validated m) : Bounded m ∧ Safe m := by
  obtain ⟨value, label, h⟩ := h
  cases value with
  | list items =>
    obtain ⟨hitems, hcheck⟩ := validatedAffine_ok h
    have hm : ∀ x ∈ m.toList, |x| ≤ 4 := by
      intro x hx
      have hforall := List.forall₂_of_mapM_ok hitems
      obtain ⟨i, hi, rfl⟩ := List.mem_iff_getElem.mp hx
      exact affineNumber_bound (hforall.get (hforall.length_eq ▸ hi) hi)
    obtain ⟨hbounded, hsafe, -⟩ := (checkAffine_iff hm).mp hcheck
    exact ⟨hbounded, hsafe⟩
  | _ => exact nomatch h

/-! ## What a document reads as -/

/-- A matrix as its text shows it. -/
def shownMatrix (m : Affine) : Affine := m.map shown

private theorem mapM_affineNumber {label : String} {xs : List ℚ} (h : ∀ x ∈ xs, |x| ≤ 4) :
    (xs.map fun x => Value.float (.finite x "")).mapM (affineNumber exactFloats label) =
      .ok xs := by
  refine List.mapM_ok_of_forall₂
    (List.forall₂_map_left_iff.mpr (List.forall₂_same.mpr fun x hx => ?_))
  exact if_pos (abs_le.mp (h x hx))

private theorem validatedAffine_numbers {label : String} {m : Affine}
    (h : ∀ x ∈ m.toList, |x| ≤ 4) :
    validatedAffine exactFloats (.list (m.toList.map fun x => .float (.finite x ""))) label =
      checkAffine exactFloats label m := by
  rw [validatedAffine, if_neg (by rw [List.length_map, Vector.length_toList]; decide),
    mapM_affineNumber h]
  obtain ⟨⟨entries⟩, hsize⟩ := m
  rcases entries with _ | ⟨a,
    _ | ⟨b, _ | ⟨c, _ | ⟨d, _ | ⟨e, _ | ⟨f, _ | ⟨g, _ | ⟨h, _ | ⟨i, _ | ⟨j, rest⟩⟩⟩⟩⟩⟩⟩⟩⟩⟩
    <;> first | rfl | simp at hsize

private theorem getElem_shownMatrix (m : Affine) (i : Nat) (hi : i < 9) :
    (shownMatrix m)[i] = shown m[i] :=
  Vector.getElem_map ..

private theorem toList_shownMatrix (m : Affine) : (shownMatrix m).toList = m.toList.map shown :=
  Vector.toList_map

section Coefficients

variable {m : Affine} (h : Bounded m)

include h

private theorem Bounded.abs_getElem_le (i : Nat) (hi : i < 9) : |m[i]| ≤ 4 :=
  h.coefficients _ (Vector.mem_toList_iff.mpr (Vector.getElem_mem hi))

/-- A bound that is a multiple of `1e-9` survives the rounding. -/
private theorem Bounded.shown_getElem_mem (i : Nat) (hi : i < 9) (lo hi' : ℤ)
    (hlo : lo / 10 ^ 9 ≤ m[i]) (hhi : m[i] ≤ hi' / 10 ^ 9) :
    lo / 10 ^ 9 ≤ (shownMatrix m)[i] ∧ (shownMatrix m)[i] ≤ hi' / 10 ^ 9 := by
  have hplace : ∀ n : ℚ, n / 10 ^ 9 = n * 10 ^ (-9 : ℤ) := fun n => by
    rw [div_eq_mul_inv, zpow_neg]
    norm_cast
  rw [hplace] at hlo hhi
  rw [getElem_shownMatrix, hplace, hplace]
  exact shown_bounds (h.abs_getElem_le i hi) (by decide) hlo hhi

private theorem Bounded.abs_shown_le (i : Nat) (hi : i < 9) {n : ℤ} (hn : |m[i]| ≤ n / 10 ^ 9) :
    |(shownMatrix m)[i]| ≤ n / 10 ^ 9 := by
  obtain ⟨hlo, hhi⟩ := abs_le.mp hn
  obtain ⟨hlo, hhi⟩ := h.shown_getElem_mem i hi (-n) n
    (by rwa [Int.cast_neg, neg_div]) hhi
  rw [Int.cast_neg, neg_div] at hlo
  exact abs_le.mpr ⟨hlo, hhi⟩

/-- The checks of single coefficients hold of the rounded ones. -/
theorem Bounded.shownMatrix : Bounded (shownMatrix m) := by
  refine ⟨fun x hx => ?_, ⟨?_, ?_, ?_⟩, ?_, ?_⟩
  · obtain ⟨i, hi, rfl⟩ := List.mem_iff_getElem.mp hx
    rw [Vector.length_toList] at hi
    have hle := h.abs_getElem_le i hi
    have hle := h.abs_shown_le i hi (n := 4 * 10 ^ 9) (by norm_num; exact hle)
    norm_num at hle
    rwa [Vector.getElem_toList]
  · have hle := h.abs_shown_le 6 (by decide) (n := 1)
    rw [Int.cast_one] at hle
    exact hle h.row.1
  · have hle := h.abs_shown_le 7 (by decide) (n := 1)
    rw [Int.cast_one] at hle
    exact hle h.row.2.1
  · obtain ⟨hlo, hhi⟩ := abs_le.mp h.row.2.2
    obtain ⟨hlo, hhi⟩ := h.shown_getElem_mem 8 (by decide) (10 ^ 9 - 1) (10 ^ 9 + 1)
      (by push_cast; linarith) (by push_cast; linarith)
    push_cast at hlo hhi
    exact abs_le.mpr ⟨by linarith, by linarith⟩
  · obtain ⟨hlo, hhi⟩ := h.shown_getElem_mem 2 (by decide) (-10 ^ 9) (2 * 10 ^ 9)
      (by push_cast; linarith [h.origin.1.1]) (by push_cast; linarith [h.origin.1.2])
    push_cast at hlo hhi
    exact ⟨by linarith, by linarith⟩
  · obtain ⟨hlo, hhi⟩ := h.shown_getElem_mem 5 (by decide) (-10 ^ 9) (2 * 10 ^ 9)
      (by push_cast; linarith [h.origin.2.1]) (by push_cast; linarith [h.origin.2.2])
    push_cast at hlo hhi
    exact ⟨by linarith, by linarith⟩

end Coefficients

/-- Coefficients that agree up to `1e-9`. -/
def Near (m m' : Affine) : Prop := ∀ i (h : i < 9), |m'[i] - m[i]| ≤ 1 / 10 ^ 9

theorem Bounded.near {m : Affine} (h : Bounded m) : Near m (Ch347.shownMatrix m) := by
  intro i hi
  rw [getElem_shownMatrix]
  exact abs_shown_sub_le (h.abs_getElem_le i hi)

/-- The numbers of a written matrix are read as what they show, and checked. -/
private theorem documentMatrix_written {values : List (List Char × List Char)}
    {keys : List (List Char)} {m : Affine} (h : Bounded m)
    (hvalues : List.Forall₂ (fun key text => values.lookup key = some text) keys
      (formatted exactFloats m)) (label complaint : String) :
    documentMatrix exactFloats values keys label complaint =
      checkAffine exactFloats label (shownMatrix m) := by
  have hnumbers : keys.mapM (fun key => (values.lookup key).bind exactFloats.parse) =
      some ((shownMatrix m).toList.map fun x => .finite x "") := by
    rw [toList_shownMatrix, List.map_map]
    refine List.mapM_some_of_forall₂ (List.forall₂_map_right_iff.mpr ?_)
    rw [formatted, List.forall₂_map_right_iff] at hvalues
    refine hvalues.imp fun key x hkey => ?_
    rw [hkey, Option.bind_some, parse_format]
    rfl
  rw [documentMatrix, hnumbers]
  have hmap : ((shownMatrix m).toList.map fun x => PyFloat.finite x "").map Value.float =
      (shownMatrix m).toList.map fun x => Value.float (.finite x "") := List.map_map
  simp only [hmap]
  exact validatedAffine_numbers h.shownMatrix.coefficients

private theorem documentMatrix_ok_iff {values : List (List Char × List Char)}
    {keys : List (List Char)} {m m' : Affine} (h : Bounded m)
    (hvalues : List.Forall₂ (fun key text => values.lookup key = some text) keys
      (formatted exactFloats m)) (label complaint : String) :
    documentMatrix exactFloats values keys label complaint = .ok m' ↔
      Safe (shownMatrix m) ∧ m' = shownMatrix m := by
  rw [documentMatrix_written h hvalues, checkAffine_iff h.shownMatrix.coefficients]
  constructor
  · rintro ⟨-, hsafe, rfl⟩
    exact ⟨hsafe, rfl⟩
  · rintro ⟨hsafe, rfl⟩
    exact ⟨h.shownMatrix, hsafe, rfl⟩

/-! ## Matrices that survive -/

/-- A document that reads as what was written: its revision, a matrix near the one
    written, and the undo value if there was one. -/
structure ReadsAs (revision : Nat) (m : Affine) (previous : Option Affine) (doc : AffineDocument) :
    Prop where
  revision : doc.revision = revision
  matrix : Near m doc.matrix
  previous : Option.Rel Near previous doc.previous

/-- A text that is accepted and reads as what was written. -/
def Survives (result : Except PyError AffineDocument) (revision : Nat) (m : Affine)
    (previous : Option Affine) : Prop :=
  ∃ doc, result = .ok doc ∧ ReadsAs revision m previous doc

theorem effectiveText_survives_iff {m : Affine} (hm : Bounded m) {revision : Nat}
    (hrevision : revision ≤ maxAffineRevision) (filename : String) :
    Survives (parseAffineDocument exactFloats (affineEffectiveText exactFloats revision m) false
      filename) revision m none ↔ Safe (shownMatrix m) := by
  rw [Survives, parseAffineDocument_effectiveText_eq exactFloats hrevision]
  have hlookup := lookup_effectiveItems exactFloats revision m
  constructor
  · rintro ⟨doc, hdoc, -⟩
    obtain ⟨m', hm', -⟩ := Except.bind_eq_ok_iff.mp hdoc
    exact ((documentMatrix_ok_iff hm hlookup _ _).mp hm').1
  · intro hsafe
    refine ⟨⟨revision, shownMatrix m, none⟩, ?_, rfl, hm.near, .none⟩
    exact Except.bind_eq_ok_iff.mpr
      ⟨_, (documentMatrix_ok_iff hm hlookup _ _).mpr ⟨hsafe, rfl⟩, rfl⟩

theorem stateText_survives_iff {m : Affine} (hm : Bounded m) {revision : Nat}
    (hrevision : revision ≤ maxAffineRevision) (previous : Option Affine)
    (hprevious : Bounded (previous.getD identityAffine)) (filename : String) :
    Survives (parseAffineDocument exactFloats (affineStateText exactFloats revision m previous) true
      filename) revision m previous ↔
        Safe (shownMatrix m) ∧ Safe (shownMatrix (previous.getD identityAffine)) := by
  rw [Survives, parseAffineDocument_stateText_eq exactFloats hrevision]
  have hlookup := lookup_stateItems exactFloats revision m previous
  have hundo := lookup_stateItems_undo exactFloats revision m previous
  constructor
  · rintro ⟨doc, hdoc, -⟩
    obtain ⟨m', hm', hdoc⟩ := Except.bind_eq_ok_iff.mp hdoc
    obtain ⟨p', hp', -⟩ := Except.bind_eq_ok_iff.mp hdoc
    exact ⟨((documentMatrix_ok_iff hm hlookup _ _).mp hm').1,
      ((documentMatrix_ok_iff hprevious hundo _ _).mp hp').1⟩
  · rintro ⟨hsafe, hsafe'⟩
    have hmatrix := (documentMatrix_ok_iff hm hlookup "touch affine matrix"
      "touch affine configuration contains an invalid number").mpr ⟨hsafe, rfl⟩
    have hdecoded := (documentMatrix_ok_iff hprevious hundo "touch affine undo matrix"
      "touch affine undo contains an invalid number").mpr ⟨hsafe', rfl⟩
    refine ⟨_, Except.bind_eq_ok_iff.mpr ⟨_, hmatrix, Except.bind_eq_ok_iff.mpr ⟨_, hdecoded, rfl⟩⟩,
      rfl, hm.near, ?_⟩
    cases previous with
    | none => exact .none
    | some p => exact .some hprevious.near

private theorem identityAffine_bounded : Bounded identityAffine :=
  ⟨by decide +kernel, by decide +kernel, by decide +kernel⟩

private theorem identityAffine_safe : Safe (shownMatrix identityAffine) :=
  ⟨by decide +kernel, by decide +kernel, by decide +kernel⟩

/-- The text of an accepted matrix is accepted and reads as what was written exactly
    if its rounded coefficients map the corners of the panel inside the bounds and
    keep the determinant away from zero. -/
theorem affine_text_exact {m : Affine} (hm : Validated m) {revision : Nat}
    (hrevision : revision ≤ maxAffineRevision) {previous : Option Affine}
    (hprevious : ∀ p ∈ previous, Validated p) (filename : String) :
    (Survives (parseAffineDocument exactFloats (affineEffectiveText exactFloats revision m) false
        filename) revision m none ↔ Safe (shownMatrix m)) ∧
      (Survives
        (parseAffineDocument exactFloats (affineStateText exactFloats revision m previous) true
        filename) revision m previous ↔
          Safe (shownMatrix m) ∧ ∀ p ∈ previous, Safe (shownMatrix p)) := by
  have hbounded := hm.bounded_safe.1
  refine ⟨effectiveText_survives_iff hbounded hrevision filename, ?_⟩
  cases previous with
  | none =>
    rw [stateText_survives_iff hbounded hrevision none identityAffine_bounded,
      and_congr_right_iff]
    intro _
    exact ⟨fun _ p hp => (nomatch hp), fun _ => identityAffine_safe⟩
  | some p =>
    rw [stateText_survives_iff hbounded hrevision (some p) (hprevious p rfl).bounded_safe.1,
      and_congr_right_iff]
    intro _
    exact ⟨fun h q hq => Option.some.inj hq ▸ h, fun h => h p rfl⟩

namespace Sample

/-- The `float` nearest to two thirds. -/
def twoThirds : ℚ := 6004799503160661 / 2 ^ 53

/-- A matrix that maps the far corner of the panel to the bound. -/
def stretched : Affine := #v[twoThirds, twoThirds, twoThirds, 0, 1, 0, 0, 0, 1]

/-- Two matrices that leave a margin around the panel. -/
def shrunk : Affine := #v[twoThirds, 0, twoThirds / 8, 0, twoThirds, twoThirds / 4, 0, 0, 1]

def shrunkMore : Affine := #v[twoThirds / 2, 0, 1 / 4, 0, twoThirds / 2, 1 / 4, 0, 0, 1]

theorem accepted {m : Affine} (hbounded : Bounded m) (hsafe : Safe m) : Validated m := by
  refine ⟨.list (m.toList.map fun x => .float (.finite x "")), "matrix", ?_⟩
  rw [validatedAffine_numbers hbounded.coefficients]
  exact (checkAffine_iff hbounded.coefficients).mpr ⟨hbounded, hsafe, rfl⟩

theorem stretched_accepted : Validated stretched :=
  accepted ⟨by decide +kernel, by decide +kernel, by decide +kernel⟩
    ⟨by decide +kernel, by decide +kernel, by decide +kernel⟩

private theorem stretched_not_safe : ¬ Safe (shownMatrix stretched) :=
  fun h => absurd h.horizontal (by decide +kernel)

end Sample

/-- Rounding changes the coefficients of both matrices, and their text survives. -/
theorem affine_text_exact_rounded :
    shownMatrix Sample.shrunk ≠ Sample.shrunk ∧ shownMatrix Sample.shrunkMore ≠ Sample.shrunkMore ∧
    Survives (parseAffineDocument exactFloats (affineStateText exactFloats 7 Sample.shrunk
      (some Sample.shrunkMore)) true "touch_affine.env") 7 Sample.shrunk
        (some Sample.shrunkMore) := by
  have haccepted : Validated Sample.shrunk :=
    Sample.accepted ⟨by decide +kernel, by decide +kernel, by decide +kernel⟩
      ⟨by decide +kernel, by decide +kernel, by decide +kernel⟩
  have hprevious : ∀ p ∈ some Sample.shrunkMore, Validated p := by
    rintro p ⟨⟩
    exact Sample.accepted ⟨by decide +kernel, by decide +kernel, by decide +kernel⟩
      ⟨by decide +kernel, by decide +kernel, by decide +kernel⟩
  refine ⟨by decide +kernel, by decide +kernel, (affine_text_exact haccepted
    (show 7 ≤ maxAffineRevision by decide) hprevious _).2.mpr ⟨?_, ?_⟩⟩
  · exact ⟨by decide +kernel, by decide +kernel, by decide +kernel⟩
  · rintro p ⟨⟩
    exact ⟨by decide +kernel, by decide +kernel, by decide +kernel⟩

/-- Three coefficients are rounded up, and the corner is outside in both documents. -/
theorem affine_text_refused : Validated Sample.stretched ∧
    ¬ Survives (parseAffineDocument exactFloats (affineEffectiveText exactFloats 0 Sample.stretched)
      false "touch-affine.effective.env") 0 Sample.stretched none ∧
    ¬ Survives
      (parseAffineDocument exactFloats (affineStateText exactFloats 0 Sample.stretched none)
      true "touch_affine.env") 0 Sample.stretched none := by
  have hbounded := Sample.stretched_accepted.bounded_safe.1
  refine ⟨Sample.stretched_accepted, fun h => ?_, fun h => ?_⟩
  · exact Sample.stretched_not_safe ((effectiveText_survives_iff hbounded (by decide) _).mp h)
  · exact Sample.stretched_not_safe
      ((stateText_survives_iff hbounded (by decide) none identityAffine_bounded _).mp h).1

end MsysHal.Ch347

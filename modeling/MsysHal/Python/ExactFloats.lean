import MsysHal.ForStd.FormatG
import MsysHal.Python.Affine

/-!
# Exact numbers as floats

The numbers of the touch affine documents when a `float` is an exact number: an
operation does not round, and `format(x, ".12g")` rounds to twelve significant
digits. The exponents of a `float` are bounded; a number beyond them is written
as zero.

## Key results

- `exactFloats`: exact numbers, as the documents use them
- `shown_bounds`, `abs_shown_sub_le`: what a coefficient of a matrix is written as
-/

namespace MsysHal.Ch347

open Python (roundDigits formatG parseFloat)

/-- The number that `format(x, ".12g")` shows. -/
def shown (x : ℚ) : ℚ :=
  if (Int.log 10 |roundDigits 12 x|).natAbs < 1000 then roundDigits 12 x else 0

theorem roundDigits_shown (x : ℚ) : roundDigits 12 (shown x) = shown x := by
  rw [shown]
  split_ifs
  · exact Python.roundDigits_roundDigits (by decide) x
  · exact Python.roundDigits_zero

theorem log_shown_lt (x : ℚ) : (Int.log 10 |shown x|).natAbs < 1000 := by
  rw [shown]
  split_ifs with h
  · exact h
  · rw [abs_zero, Int.log_zero_right]
    decide

theorem shown_shown (x : ℚ) : shown (shown x) = shown x := by
  conv_lhs => rw [shown, roundDigits_shown, if_pos (log_shown_lt x)]

/-- Exact numbers. -/
def exactFloats : Floats where
  ofInt n := some n
  parse := parseFloat
  round x := x
  format x := formatG 12 (shown x)
  format_ne_nil x := Python.formatG_ne_nil 12 _
  length_format_le x := by
    have h := Python.length_formatG_le (p := 12) (by decide) (x := shown x)
      ((roundDigits_shown x).symm ▸ log_shown_lt x)
    omega
  isNumberChar_format x c hc := by
    rcases Python.Numeral.mem_text (Python.wellFormed_numeral _ _) hc with hc | hc
    · rw [isNumberChar, hc]
      rfl
    · simp only [List.mem_cons, List.not_mem_nil, or_false] at hc
      rcases hc with rfl | rfl | rfl | rfl <;> decide
  format_parse x y text hparse := by
    rw [Python.parseFloat_formatG (by decide), roundDigits_shown] at hparse
    cases hparse
    rw [shown_shown]

/-- A written number reads as the number it shows. -/
theorem parse_format (x : ℚ) :
    exactFloats.parse (exactFloats.format x) = some (.finite (shown x) "") := by
  change parseFloat (formatG 12 (shown x)) = _
  rw [Python.parseFloat_formatG (by decide), roundDigits_shown]

/-! ## Coefficients of a matrix -/

section Coefficients

variable {x : ℚ}

private theorem log_nonpos (hx : |x| ≤ 4) : Int.log 10 |x| ≤ 0 := by
  rcases eq_or_ne x 0 with rfl | hne
  · rw [abs_zero, Int.log_zero_right]
  · have h := (Int.lt_zpow_iff_log_lt (b := 10) (by norm_num) (x := 1) (abs_pos.mpr hne)).mp
      (by norm_num; linarith)
    omega

/-- The last of twelve digits is small. -/
private theorem ulp_le (hx : |x| ≤ 4) : Python.ulp 12 x ≤ 10 ^ (-11 : ℤ) := by
  have h := log_nonpos hx
  exact zpow_le_zpow_right₀ (by norm_num) (by push_cast; omega)

private theorem roundDigits_between (hx : |x| ≤ 4) (lo hi k : ℤ) (hk : -10 ≤ k)
    (hlo : lo * (10 : ℚ) ^ k ≤ x) (hhi : x ≤ hi * (10 : ℚ) ^ k) :
    lo * (10 : ℚ) ^ k ≤ roundDigits 12 x ∧ roundDigits 12 x ≤ hi * (10 : ℚ) ^ k := by
  have h := log_nonpos hx
  exact Python.roundDigits_between (by push_cast; omega) hlo hhi

/-- Only a tiny coefficient is not shown with its digits. -/
private theorem shown_cases (hx : |x| ≤ 4) :
    shown x = roundDigits 12 x ∨ shown x = 0 ∧ |x| < 10 ^ (-10 : ℤ) := by
  rw [shown]
  split_ifs with h
  · exact .inl rfl
  · refine .inr ⟨rfl, ?_⟩
    have hx' := abs_le.mp hx
    have hround := roundDigits_between hx (-4) 4 0 (by decide)
      (by push_cast; linarith [hx'.1]) (by push_cast; linarith [hx'.2])
    have hlog := log_nonpos (x := roundDigits 12 x)
      (abs_le.mpr ⟨by simpa using hround.1, by simpa using hround.2⟩)
    rcases eq_or_ne x 0 with rfl | hne
    · rw [abs_zero]
      exact zpow_pos (by norm_num) _
    · have hne' : roundDigits 12 x ≠ 0 := by
        intro hzero
        rw [hzero, abs_zero, Int.log_zero_right] at h
        exact h (by decide)
      have htiny : |roundDigits 12 x| < 10 ^ (-11 : ℤ) := by
        refine lt_of_lt_of_le (Python.abs_mem_of_ne_zero hne').2 ?_
        exact zpow_le_zpow_right₀ (by norm_num) (by omega)
      have hulp : Python.ulp 12 x ≤ |x| := by
        refine le_trans ?_ (Python.abs_mem_of_ne_zero hne).1
        exact zpow_le_zpow_right₀ (by norm_num) (by push_cast; omega)
      have herror := Python.abs_roundDigits_sub_le 12 x
      have htriangle := abs_sub_abs_le_abs_sub x (roundDigits 12 x)
      rw [abs_sub_comm] at herror
      have hpow : (10 : ℚ) ^ (-10 : ℤ) = 10 * 10 ^ (-11 : ℤ) := by norm_num
      have hnonneg := abs_nonneg (roundDigits 12 x)
      rw [hpow]
      linarith

/-- A coefficient between multiples of a place is shown between them. -/
theorem shown_bounds (hx : |x| ≤ 4) {lo hi k : ℤ} (hk : -10 ≤ k) (hlo : lo * (10 : ℚ) ^ k ≤ x)
    (hhi : x ≤ hi * (10 : ℚ) ^ k) : lo * (10 : ℚ) ^ k ≤ shown x ∧ shown x ≤ hi * (10 : ℚ) ^ k := by
  rcases shown_cases hx with hshown | ⟨hshown, htiny⟩
  · rw [hshown]
    exact roundDigits_between hx _ _ _ hk hlo hhi
  · have hplace : |x| < (10 : ℚ) ^ k :=
      htiny.trans_le (zpow_le_zpow_right₀ (by norm_num) hk)
    have hpos : (0 : ℚ) < 10 ^ k := zpow_pos (by norm_num) k
    obtain ⟨hlow, hhigh⟩ := abs_lt.mp hplace
    have hlo' : lo ≤ 0 := by
      have h : (lo : ℚ) * 10 ^ k < 1 * 10 ^ k := by linarith
      have h : (lo : ℚ) < 1 := lt_of_mul_lt_mul_right h hpos.le
      exact Int.lt_add_one_iff.mp (by exact_mod_cast h)
    have hhi' : 0 ≤ hi := by
      have h : (-1 : ℚ) * 10 ^ k < hi * 10 ^ k := by linarith
      have h : (-1 : ℚ) < hi := lt_of_mul_lt_mul_right h hpos.le
      have h : -1 < hi := by exact_mod_cast h
      omega
    rw [hshown]
    exact ⟨mul_nonpos_of_nonpos_of_nonneg (by exact_mod_cast hlo') hpos.le,
      mul_nonneg (by exact_mod_cast hhi') hpos.le⟩

/-- A coefficient is shown up to `1e-9`. -/
theorem abs_shown_sub_le (hx : |x| ≤ 4) : |shown x - x| ≤ 1 / 10 ^ 9 := by
  rcases shown_cases hx with hshown | ⟨hshown, htiny⟩
  · rw [hshown]
    refine (Python.abs_roundDigits_sub_le 12 x).trans ?_
    have h := ulp_le hx
    norm_num at h ⊢
    linarith
  · rw [hshown, zero_sub, abs_neg]
    refine htiny.le.trans ?_
    norm_num

end Coefficients

end MsysHal.Ch347

import Mathlib

/-!
# Rounding to the nearest integer

`round` of Python for an exact quotient.

## Key results

- `roundHalfEven_eq`: the only integer less than a half away is the rounded value
- `roundHalfEven_div`: a quotient of integers, from quotient and remainder
- `abs_roundHalfEven_sub_le`, `roundHalfEven_mem`: how far the rounded value is
-/

namespace Python

/-- `round(q)`: the nearest integer, of two that are equally near the even one. -/
def roundHalfEven (q : ℚ) : ℤ :=
  if q - ⌊q⌋ < 1 / 2 ∨ q - ⌊q⌋ = 1 / 2 ∧ ⌊q⌋ % 2 = 0 then ⌊q⌋ else ⌊q⌋ + 1

theorem roundHalfEven_div (a : ℤ) {b : ℤ} (hb : 0 < b) : roundHalfEven (a / b) =
    if 2 * (a % b) < b ∨ 2 * (a % b) = b ∧ a / b % 2 = 0 then a / b else a / b + 1 := by
  have hbq : (0 : ℚ) < b := Int.cast_pos.mpr hb
  have hfloor : ⌊(a / b : ℚ)⌋ = a / b := by
    lift b to ℕ using hb.le
    exact Rat.floor_intCast_div_natCast a b
  have hfract : (a / b : ℚ) - (a / b : ℤ) = (a % b : ℤ) / b := by
    rw [eq_div_iff hbq.ne', sub_mul, div_mul_cancel₀ _ hbq.ne', Int.emod_def]
    push_cast
    ring
  have hlt : (a / b : ℚ) - (a / b : ℤ) < 1 / 2 ↔ 2 * (a % b) < b := by
    rw [hfract, div_lt_div_iff₀ hbq two_pos, one_mul, mul_comm]
    exact_mod_cast Iff.rfl
  have heq : (a / b : ℚ) - (a / b : ℤ) = 1 / 2 ↔ 2 * (a % b) = b := by
    rw [hfract, div_eq_div_iff hbq.ne' two_ne_zero, one_mul, mul_comm]
    exact_mod_cast Iff.rfl
  simp only [roundHalfEven, hfloor, hlt, heq]

theorem roundHalfEven_eq {q : ℚ} {n : ℤ} (h : |q - n| < 1 / 2) : roundHalfEven q = n := by
  rw [abs_lt] at h
  rcases le_or_gt (n : ℚ) q with hle | hgt
  · have hfloor : ⌊q⌋ = n := Int.floor_eq_iff.mpr ⟨hle, by linarith [h.2]⟩
    rw [roundHalfEven, hfloor, if_pos (.inl h.2)]
  · have hfloor : ⌊q⌋ = n - 1 := by
      rw [Int.floor_eq_iff]
      push_cast
      exact ⟨by linarith [h.1], by linarith⟩
    have hfar : ¬ (q - ⌊q⌋ < 1 / 2 ∨ q - ⌊q⌋ = 1 / 2 ∧ ⌊q⌋ % 2 = 0) := by
      rw [hfloor]
      push_cast
      rintro (hlt | ⟨heq, -⟩) <;> linarith [h.1]
    rw [roundHalfEven, if_neg hfar, hfloor, sub_add_cancel]

/-- The rounded value is between the same integers. -/
theorem roundHalfEven_mem {q : ℚ} {lo hi : ℤ} (hlo : lo ≤ q) (hhi : q ≤ hi) :
    lo ≤ roundHalfEven q ∧ roundHalfEven q ≤ hi := by
  have hfloor : lo ≤ ⌊q⌋ := Int.le_floor.mpr hlo
  have hle : ⌊q⌋ ≤ hi := by exact_mod_cast (Int.floor_le q).trans hhi
  rw [roundHalfEven]
  split_ifs with h
  · exact ⟨hfloor, hle⟩
  · refine ⟨by omega, ?_⟩
    by_contra hgt
    obtain rfl : ⌊q⌋ = hi := by omega
    exact h (.inl (by linarith))

theorem abs_roundHalfEven_sub_le (q : ℚ) : |roundHalfEven q - q| ≤ 1 / 2 := by
  have hfloor := Int.floor_le q
  have hlt := Int.lt_floor_add_one q
  rw [abs_le, roundHalfEven]
  split_ifs with h
  · rcases h with h | h <;> constructor <;> linarith
  · rw [not_or, not_lt] at h
    push_cast
    constructor <;> linarith [h.1]

theorem roundHalfEven_intCast (n : ℤ) : roundHalfEven n = n := by
  have h := roundHalfEven_mem (le_refl (n : ℚ)) (le_refl (n : ℚ))
  omega

example : [1 / 2, 3 / 2, 5 / 2, 49 / 20].map roundHalfEven = [0, 2, 2, 2] := by decide +kernel

end Python

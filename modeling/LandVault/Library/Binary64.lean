import Mathlib.Algebra.Order.Archimedean.Basic
import Mathlib.Data.Int.Log
import Mathlib.Data.Rat.Floor

/-!
# Rounding to binary64

The value of a rational number in the 64-bit binary format of IEEE 754, rounded to
nearest with ties to even. Subnormal numbers are covered, infinities are not: a number
beyond the format keeps its order of magnitude here.

Rounding moves no number past an integer that the format has (`abs_binary64_le`).
-/

set_option autoImplicit false

namespace LandVault.Library.Binary64

/-- The nearest integer, and the even one of two. -/
def roundHalfEven (q : ℚ) : ℤ :=
  let low := ⌊q⌋
  let rest := q - low
  if rest < 1 / 2 then low
  else if 1 / 2 < rest then low + 1
  else if low % 2 = 0 then low
  else low + 1

/-- The exponent of the last bit of a number: 53 bits, and no exponent below -1074. -/
def lastBit (q : ℚ) : ℤ := max (Int.log 2 |q| - 52) (-1074)

/-- The nearest number of the format. -/
def binary64 (q : ℚ) : ℚ := roundHalfEven (q / 2 ^ lastBit q) * 2 ^ lastBit q

theorem le_roundHalfEven {q : ℚ} {n : ℤ} (le : n ≤ q) : n ≤ roundHalfEven q := by
  have floor : n ≤ ⌊q⌋ := Int.le_floor.mpr le
  simp only [roundHalfEven]
  split_ifs <;> omega

theorem roundHalfEven_le {q : ℚ} {n : ℤ} (le : q ≤ n) : roundHalfEven q ≤ n := by
  have floor : ⌊q⌋ ≤ n := Int.floor_le_iff.mpr (lt_of_le_of_lt le (by simp))
  rcases floor.lt_or_eq with below | same
  · simp only [roundHalfEven]
    split_ifs <;> omega
  · have exact : q = n := le_antisymm le (same ▸ Int.floor_le q)
    simp [roundHalfEven, exact]

/-- The last bit of a small number is no multiple of two. -/
theorem lastBit_nonpos {q : ℚ} {n : ℕ} (le : |q| ≤ n) (small : n < 2 ^ 53) : lastBit q ≤ 0 := by
  unfold lastBit
  refine max_le ?_ (by norm_num)
  by_cases zero : q = 0
  · simp [zero]
  have bound : |q| < (2 : ℕ) ^ (53 : ℤ) := lt_of_le_of_lt le (by exact_mod_cast small)
  have log : Int.log 2 |q| < 53 :=
    (Int.lt_zpow_iff_log_lt (by norm_num) (abs_pos.mpr zero)).mp bound
  omega

/-- Rounding moves no number past an integer of at most 53 bits. -/
theorem abs_binary64_le {q : ℚ} {n : ℕ} (le : |q| ≤ n) (small : n < 2 ^ 53) : |binary64 q| ≤ n := by
  obtain ⟨k, exponent⟩ := Int.eq_ofNat_of_zero_le (neg_nonneg.mpr (lastBit_nonpos le small))
  have power : (2 : ℚ) ^ lastBit q = 1 / 2 ^ k := by
    rw [show lastBit q = -(k : ℤ) by omega, zpow_neg, zpow_natCast, one_div]
  have positive : (0 : ℚ) < 2 ^ k := by positivity
  have scaled : ∀ m : ℤ, (m : ℚ) * (1 / 2 ^ k) = m / 2 ^ k := fun m => by ring
  rw [binary64, power, scaled, abs_le]
  obtain ⟨lower, upper⟩ := abs_le.mp le
  constructor
  · rw [le_div_iff₀ positive]
    have step : ((-(n * 2 ^ k) : ℤ) : ℚ) ≤ q / (1 / 2 ^ k) := by
      rw [div_div_eq_mul_div, div_one]
      push_cast
      nlinarith
    exact_mod_cast le_trans (le_of_eq (by push_cast; ring)) (Int.cast_le.mpr (le_roundHalfEven step))
  · rw [div_le_iff₀ positive]
    have step : q / (1 / 2 ^ k) ≤ ((n * 2 ^ k : ℤ) : ℚ) := by
      rw [div_div_eq_mul_div, div_one]
      push_cast
      nlinarith
    exact_mod_cast le_trans (Int.cast_le.mpr (roundHalfEven_le step)) (le_of_eq (by push_cast; ring))

end LandVault.Library.Binary64

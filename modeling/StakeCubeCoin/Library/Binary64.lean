import Mathlib.Data.Nat.Log
import Mathlib.Tactic.Ring
import Mathlib.Tactic.Linarith

namespace StakeCubeCoin.Library
namespace Binary64

open Nat

/-!
# Rounding to the significand of a double

A product of an integer with a constant between one half and one stays far away from the
limits of the exponent of a double, so that its rounding is that of a natural number to 53
significant bits.
-/

def PRECISION : Nat := 53

/-- The nearest number with 53 significant bits; of two, the one whose last bit is zero. -/
def roundToNearestEven (value : Nat) : Nat :=
  let ulp := 2 ^ (value.log2 - (PRECISION - 1))
  let quotient := value / ulp
  let remainder := value % ulp
  if ulp < 2 * remainder \/ (2 * remainder = ulp /\ quotient % 2 = 1) then (quotient + 1) * ulp
  else quotient * ulp

/-- Numbers that fit in the significand are not rounded. -/
theorem roundToNearestEven_of_lt {value : Nat} (fits : value < 2 ^ PRECISION) :
    roundToNearestEven value = value := by
  have exponent : value.log2 - (PRECISION - 1) = 0 := by
    by_cases zero : value = 0
    · rw [zero]
      rfl
    · have bound := (log2_lt zero).mpr fits
      omega
  simp [roundToNearestEven, exponent, mod_one]

theorem roundToNearestEven_le (value : Nat) : 8 * roundToNearestEven value <= 9 * value := by
  by_cases fits : value < 2 ^ PRECISION
  · rw [roundToNearestEven_of_lt fits]
    omega
  have large : value ≠ 0 := by
    intro zero
    rw [zero] at fits
    exact fits (by decide)
  have width : PRECISION <= value.log2 := (le_log2 large).mpr (not_lt.mp fits)
  have ulpSmall : 8 * 2 ^ (value.log2 - (PRECISION - 1)) <= value := by
    calc 8 * 2 ^ (value.log2 - (PRECISION - 1)) = 2 ^ (value.log2 - (PRECISION - 1) + 3) := by ring
      _ <= 2 ^ value.log2 := Nat.pow_le_pow_right (by decide) (by simp only [PRECISION] at *; omega)
      _ <= value := log2_self_le large
  have below := div_mul_le_self value (2 ^ (value.log2 - (PRECISION - 1)))
  unfold roundToNearestEven
  dsimp only
  split
  · rw [add_mul]
    omega
  · omega

end Binary64
end StakeCubeCoin.Library

import Mathlib.Data.Rat.Floor
import Mathlib.Tactic.Linarith

/-! 64-bit signed arithmetic where it does not overflow, and numbers that are scaled
by a fraction in two parts. -/

namespace Kvasir.Signed

/-- The integers that 64 signed bits hold. -/
def InRange (x : Int) : Prop := -9223372036854775808 ≤ x ∧ x < 9223372036854775808

theorem toInt_inRange (a : Int64) : InRange a.toInt := ⟨a.le_toInt, a.toInt_lt⟩

section Exact
variable {a b : Int64}

private theorem bmod_inRange {x : Int} (held : InRange x) : x.bmod (2 ^ 64) = x := by
  obtain ⟨low, high⟩ := held
  exact Int.bmod_eq_of_le (by omega) (by omega)

theorem toInt_add (held : InRange (a.toInt + b.toInt)) : (a + b).toInt = a.toInt + b.toInt := by
  rw [Int64.toInt_add, bmod_inRange held]

theorem toInt_sub (held : InRange (a.toInt - b.toInt)) : (a - b).toInt = a.toInt - b.toInt := by
  rw [Int64.toInt_sub, bmod_inRange held]

theorem toInt_mul (held : InRange (a.toInt * b.toInt)) : (a * b).toInt = a.toInt * b.toInt := by
  rw [Int64.toInt_mul, bmod_inRange held]

/-- Division truncates, which makes no difference for what is not negative. -/
theorem toInt_div (nonneg : 0 ≤ a.toInt) (positive : 0 < b.toInt) : (a / b).toInt = a.toInt / b.toInt := by
  have held : InRange (a.toInt / b.toInt) := by
    have low := Int.ediv_nonneg nonneg positive.le
    have high := Int.ediv_le_self b.toInt nonneg
    obtain ⟨_, bound⟩ := toInt_inRange a
    exact ⟨by omega, by omega⟩
  rw [Int64.toInt_div, Int.tdiv_eq_ediv_of_nonneg nonneg, bmod_inRange held]

theorem toInt_mod (nonneg : 0 ≤ a.toInt) : (a % b).toInt = a.toInt % b.toInt := by
  rw [Int64.toInt_mod, Int.tmod_eq_emod_of_nonneg nonneg]

end Exact

/-- Quotient and remainder are scaled apart without losing anything. -/
theorem scale_split {d : Int} (positive : 0 < d) (n k : Int) : n / d * k + n % d * k / d = n * k / d := by
  have whole : n * k = n % d * k + d * (n / d * k) := by
    conv => lhs; rw [← Int.emod_add_mul_ediv n d]
    ring
  rw [whole, Int.add_mul_ediv_left _ _ positive.ne', Int.add_comm]

theorem floor_scaled {d : Int} (positive : 0 < d) (n : Int) : ⌊(n : ℚ) / d⌋ = n / d := by
  obtain ⟨d, rfl⟩ := Int.eq_ofNat_of_zero_le positive.le
  exact_mod_cast Rat.floor_intCast_div_natCast n d

/-- Rounding both down changes a difference by less than one. -/
theorem floor_difference (x y : ℚ) : |((⌊x⌋ - ⌊y⌋ : Int) : ℚ) - (x - y)| < 1 := by
  have above := Int.floor_le x
  have below := Int.lt_floor_add_one x
  have aboveOther := Int.floor_le y
  have belowOther := Int.lt_floor_add_one y
  rw [abs_lt]
  push_cast
  constructor <;> linarith

end Kvasir.Signed

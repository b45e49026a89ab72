import Kvasir.Bench
import Kvasir.Lib.Numerals

/-! The key names of the harness. The loop fills its buffer from the end, one digit
for each place of what is left of the number, and twenty bytes hold more places
than an int has. -/

namespace Kvasir.Bench
open Utf8 Numerals

/-- What is left of the number is written in front of the digits already there. -/
theorem itoaLoop_digits {i n : Nat} (fits : n < 10 ^ i) (b : Bytes) :
    itoaLoop i n b = some (((Nat.digits 10 n).map digit).reverse ++ b) := by
  induction i generalizing n b with
  | zero =>
    obtain rfl : n = 0 := by simpa using fits
    rfl
  | succ i ih =>
    cases n with
    | zero => rfl
    | succ n =>
      have left : (n + 1) / 10 < 10 ^ i := Nat.div_lt_of_lt_mul (by rwa [Nat.pow_succ'] at fits)
      rw [itoaLoop, ih left, Nat.digits_def' (by decide) (Nat.succ_pos n), List.map_cons, List.reverse_cons, List.append_assoc]
      · rfl
      · simp

theorem itoa_numeral {n : Nat} (fits : n < 10 ^ 20) : itoa n = some (numeral n) := by
  unfold itoa numeral
  split
  · rfl
  · rw [itoaLoop_digits fits, List.append_nil]

/-- Counts that a 64-bit int holds. -/
def IsCount (n : Nat) : Prop := n < 2 ^ 63

theorem IsCount.fits {n : Nat} (count : IsCount n) : n < 10 ^ 20 := Nat.lt_trans count (by decide)

/-- The loop stays inside its buffer and writes the number in decimal, so no two
numbers get one name. -/
theorem itoa_decimal {n : Nat} (count : IsCount n) :
    (∃ digits, itoa n = some digits ∧ Decimal digits n) ∧ ∀ m, IsCount m → itoa m = itoa n → m = n := by
  refine ⟨⟨numeral n, itoa_numeral count.fits, decimal_numeral n⟩, fun m other same => ?_⟩
  rw [itoa_numeral other.fits, itoa_numeral count.fits, Option.some.injEq] at same
  exact numeral_injective same

theorem itoa_decimal_largest : IsCount 9223372036854775807 ∧
    itoa 9223372036854775807 = some (text "9223372036854775807") ∧ Decimal (text "9223372036854775807") 9223372036854775807 := by
  have count : IsCount 9223372036854775807 := by unfold IsCount; norm_num
  have wrote : itoa 9223372036854775807 = some (text "9223372036854775807") := by decide +kernel
  obtain ⟨digits, written, decimal⟩ := (itoa_decimal count).1
  obtain rfl := Option.some.inj (wrote.symm.trans written)
  exact ⟨count, wrote, decimal⟩

end Kvasir.Bench

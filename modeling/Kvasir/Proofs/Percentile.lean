import Kvasir.Bench
import Kvasir.Lib.Ranks
import Mathlib.Data.Rat.Floor
import Mathlib.Tactic.Linarith
import Mathlib.Tactic.Positivity

/-! The percentile against nearest rank. Truncation gives the index that nearest
rank asks for, except where the share of the sample is a whole number. There it is
one too high, unless the clamp takes it back or the two elements are equal. -/

namespace Kvasir.Bench
open Ranks

/-- The share of a sample that lies at a percentage. -/
def share (lat : List Int) (p : ℚ) : ℚ := p / 100 * lat.length

/-- The least element with at least this share of the sample up to it. -/
structure NearestRank (lat : List Int) (p : ℚ) (x : Int) : Prop where
  member : x ∈ lat
  enough : share lat p ≤ upTo lat x
  least : ∀ y ∈ lat, share lat p ≤ upTo lat y → x ≤ y

/-- The share is a whole number of elements, not all, and the next one is larger. -/
def OffByOne (lat : List Int) (p : ℚ) : Prop :=
  ∃ k : Nat, share lat p = k ∧ k < lat.length ∧ lat[k - 1]? ≠ lat[k]?

theorem truncate_floor {x : ℚ} (nonneg : 0 ≤ x) : truncate x = ⌊x⌋₊ := by
  rw [truncate, Int.tdiv_eq_ediv_of_nonneg (Rat.num_nonneg.mpr nonneg), ← Rat.floor_def', ← Int.floor_toNat,
    Int.toNat_of_nonneg (Int.floor_nonneg.mpr nonneg)]

section Share
variable {lat : List Int} {p q : ℚ} (nonempty : lat ≠ [])
include nonempty

theorem share_positive (positive : 0 < p) : 0 < share lat p := by
  have length : (0 : ℚ) < lat.length := by exact_mod_cast List.length_pos_of_ne_nil nonempty
  unfold share
  positivity

theorem share_bounded (bounded : p ≤ 100) : share lat p ≤ lat.length := by
  have length : (0 : ℚ) < lat.length := by exact_mod_cast List.length_pos_of_ne_nil nonempty
  unfold share
  nlinarith

theorem share_mono (ordered : p ≤ q) : share lat p ≤ share lat q := by
  have length : (0 : ℚ) < lat.length := by exact_mod_cast List.length_pos_of_ne_nil nonempty
  unfold share
  nlinarith

end Share

theorem nearestRank_iff {lat : List Int} {p : ℚ} {x : Int} : NearestRank lat p x ↔ IsRank lat ⌈share lat p⌉₊ x := by
  constructor
  · intro ⟨member, enough, least⟩
    exact ⟨member, Nat.ceil_le.mpr enough, fun y inside more => least y inside (Nat.ceil_le.mp more)⟩
  · intro ⟨member, enough, least⟩
    exact ⟨member, Nat.ceil_le.mp enough, fun y inside more => least y inside (Nat.ceil_le.mpr more)⟩

section Percentile
variable {r : Result} {p q : ℚ}

theorem pct_index (nonempty : r.lat ≠ []) (nonneg : 0 ≤ share r.lat p) :
    r.pct p = r.lat[min ⌊share r.lat p⌋₊ (r.lat.length - 1)]? := by
  have length := List.length_pos_of_ne_nil nonempty
  have index : truncate (p / 100 * r.lat.length) = ⌊share r.lat p⌋₊ := truncate_floor nonneg
  simp only [Result.pct, if_neg nonempty, index]
  by_cases clamped : r.lat.length ≤ ⌊share r.lat p⌋₊
  · have high : (r.lat.length : Int) ≤ (⌊share r.lat p⌋₊ : Int) := by exact_mod_cast clamped
    rw [if_pos high, if_pos (by omega), Nat.min_eq_right (by omega)]
    congr 1
    omega
  · have low : ¬ (r.lat.length : Int) ≤ (⌊share r.lat p⌋₊ : Int) := by exact_mod_cast clamped
    rw [if_neg low, if_pos (by omega), Nat.min_eq_left (by omega), Int.toNat_natCast]

/-- Nearest rank counts the share up to a whole number, from one. -/
theorem nearestRank_at (ascending : r.lat.Pairwise (· ≤ ·)) (positive : 0 < share r.lat p)
    (bounded : share r.lat p ≤ r.lat.length) {x : Int} :
    NearestRank r.lat p x ↔ r.lat[⌈share r.lat p⌉₊ - 1]? = some x := by
  have first := Nat.ceil_pos.mpr positive
  have last : ⌈share r.lat p⌉₊ ≤ r.lat.length := Nat.ceil_le.mpr bounded
  have inside : ⌈share r.lat p⌉₊ - 1 < r.lat.length := by omega
  have ranked := rank_getElem ascending inside
  rw [Nat.sub_add_cancel first, ← nearestRank_iff] at ranked
  rw [List.getElem?_eq_getElem inside, Option.some.injEq]
  constructor
  · intro nearest
    exact (nearestRank_iff.mp ranked).unique (nearestRank_iff.mp nearest)
  · rintro rfl
    exact ranked

theorem offByOne_whole (whole : (⌊share r.lat p⌋₊ : ℚ) = share r.lat p) : OffByOne r.lat p ↔
    ⌊share r.lat p⌋₊ < r.lat.length ∧ r.lat[⌊share r.lat p⌋₊ - 1]? ≠ r.lat[⌊share r.lat p⌋₊]? := by
  constructor
  · intro ⟨k, same, short, different⟩
    rw [same, Nat.floor_natCast]
    exact ⟨short, different⟩
  · intro ⟨short, different⟩
    exact ⟨_, whole.symm, short, different⟩

theorem offByOne_between (between : (⌊share r.lat p⌋₊ : ℚ) ≠ share r.lat p) : ¬ OffByOne r.lat p := by
  intro ⟨k, same, _⟩
  rw [same, Nat.floor_natCast] at between
  exact between rfl

theorem index_whole (bounded : share r.lat p ≤ r.lat.length) (whole : (⌊share r.lat p⌋₊ : ℚ) = share r.lat p) :
    r.lat[⌈share r.lat p⌉₊ - 1]? = r.lat[min ⌊share r.lat p⌋₊ (r.lat.length - 1)]? ↔ ¬ OffByOne r.lat p := by
  have ceiling : ⌈share r.lat p⌉₊ = ⌊share r.lat p⌋₊ := by rw [← whole, Nat.ceil_natCast, Nat.floor_natCast]
  have top : ⌊share r.lat p⌋₊ ≤ r.lat.length := by rw [← whole] at bounded; exact_mod_cast bounded
  rw [ceiling, offByOne_whole whole, not_and_not_right]
  by_cases short : ⌊share r.lat p⌋₊ < r.lat.length
  · rw [Nat.min_eq_left (by omega)]
    exact ⟨fun same _ => same, fun same => same short⟩
  · rw [Nat.min_eq_right (by omega), show ⌊share r.lat p⌋₊ = r.lat.length by omega]
    exact ⟨fun _ more => absurd more (by omega), fun _ => rfl⟩

theorem index_between (nonneg : 0 ≤ share r.lat p) (bounded : share r.lat p ≤ r.lat.length)
    (between : (⌊share r.lat p⌋₊ : ℚ) ≠ share r.lat p) :
    r.lat[⌈share r.lat p⌉₊ - 1]? = r.lat[min ⌊share r.lat p⌋₊ (r.lat.length - 1)]? := by
  have floored : (⌊share r.lat p⌋₊ : ℚ) < share r.lat p := lt_of_le_of_ne (Nat.floor_le nonneg) between
  have ceiling : ⌈share r.lat p⌉₊ = ⌊share r.lat p⌋₊ + 1 :=
    le_antisymm (Nat.ceil_le_floor_add_one _) (Nat.lt_ceil.mpr floored)
  have short : ⌊share r.lat p⌋₊ < r.lat.length := by exact_mod_cast floored.trans_le bounded
  rw [ceiling, Nat.add_sub_cancel, Nat.min_eq_left (by omega)]

theorem pct_nearest (ascending : r.lat.Pairwise (· ≤ ·)) (nonempty : r.lat ≠ []) (positive : 0 < p) (bounded : p ≤ 100) :
    ∃ x, r.pct p = some x ∧ (NearestRank r.lat p x ↔ ¬ OffByOne r.lat p) := by
  have length := List.length_pos_of_ne_nil nonempty
  have above := share_positive nonempty positive
  have below := share_bounded nonempty bounded
  have inside : min ⌊share r.lat p⌋₊ (r.lat.length - 1) < r.lat.length := by omega
  refine ⟨_, (pct_index nonempty above.le).trans (List.getElem?_eq_getElem inside), ?_⟩
  rw [nearestRank_at ascending above below, ← List.getElem?_eq_getElem inside]
  by_cases whole : (⌊share r.lat p⌋₊ : ℚ) = share r.lat p
  · exact index_whole below whole
  · exact iff_of_true (index_between above.le below whole) (offByOne_between whole)

theorem pct_mono (ascending : r.lat.Pairwise (· ≤ ·)) (nonempty : r.lat ≠ []) (positive : 0 < p) (ordered : p ≤ q)
    {x y : Int} (lower : r.pct p = some x) (upper : r.pct q = some y) : x ≤ y := by
  rw [pct_index nonempty (share_positive nonempty positive).le] at lower
  rw [pct_index nonempty (share_positive nonempty (positive.trans_le ordered)).le] at upper
  obtain ⟨first, rfl⟩ := List.getElem?_eq_some_iff.mp lower
  obtain ⟨last, rfl⟩ := List.getElem?_eq_some_iff.mp upper
  refine ascending.rel_get_of_le (a := ⟨_, first⟩) (b := ⟨_, last⟩) ?_
  exact min_le_min_right _ (Nat.floor_mono (share_mono nonempty ordered))

theorem pct_max (nonempty : r.lat ≠ []) : r.pct 100 = some r.max := by
  have length := List.length_pos_of_ne_nil nonempty
  have all : share r.lat 100 = r.lat.length := by simp [share]
  rw [pct_index nonempty (by rw [all]; positivity), all, Nat.floor_natCast, Nat.min_eq_right (by omega),
    ← List.getLast?_eq_getElem?, List.getLast?_eq_some_getLast nonempty, Result.max, List.getLastD_eq_getLast?,
    List.getLast?_eq_some_getLast nonempty, Option.getD_some]

/-- On an ascending sample the percentile is nearest rank, except where it is off
by one. It is always an element, grows with the percentage, and ends at the maximum. -/
theorem pct_nearest_rank (ascending : r.lat.Pairwise (· ≤ ·)) (nonempty : r.lat ≠ []) :
    (∀ p, 0 < p → p ≤ 100 → ∃ x, r.pct p = some x ∧ (NearestRank r.lat p x ↔ ¬ OffByOne r.lat p)) ∧
    (∀ p q, 0 < p → p ≤ q → ∀ x y, r.pct p = some x → r.pct q = some y → x ≤ y) ∧
    r.pct 100 = some r.max :=
  ⟨fun _ positive bounded => pct_nearest ascending nonempty positive bounded,
    fun _ _ positive ordered _ _ lower upper => pct_mono ascending nonempty positive ordered lower upper, pct_max nonempty⟩

end Percentile

/-- The median of three elements is the second. -/
theorem pct_nearest_rank_three : ∃ x, (Result.of 9 [[3, 1], [2]]).pct 50 = some x ∧
    (NearestRank (Result.of 9 [[3, 1], [2]]).lat 50 x ↔ ¬ OffByOne (Result.of 9 [[3, 1], [2]]).lat 50) :=
  (pct_nearest_rank (Result.of_ascending 9 [[3, 1], [2]]) (by decide)).1 50 (by norm_num) (by norm_num)

/-- The median of two elements should be the first, and the second is returned. -/
theorem median_of_two : (Result.of 3 [[1], [2]]).pct 50 = some 2 ∧ ¬ NearestRank (Result.of 3 [[1], [2]]).lat 50 2 := by
  refine ⟨by decide +kernel, fun nearest => ?_⟩
  have least := nearest.least 1 (by decide) ?_
  · revert least
    decide
  · have lat : (Result.of 3 [[1], [2]]).lat = [1, 2] := by decide
    rw [lat]
    norm_num [share, upTo]

end Kvasir.Bench

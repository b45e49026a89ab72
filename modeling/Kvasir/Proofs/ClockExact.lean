import Kvasir.Clock
import Kvasir.Lib.Signed

/-! Readings of the Windows clock. Seconds and the rest are scaled apart, each product
stays below the limit of 64 bits, and together they are the exact time rounded down. -/

namespace Kvasir.Clock
open Signed

/-- The exact time of a count in nanoseconds. -/
def time (clock : Counter) (c : Int64) : ℚ := (c.toInt * 1000000000 : Int) / (clock.qpcFreq.toInt : ℚ)

/-- Frequencies at which the rest of a second can be scaled. -/
def Moderate (clock : Counter) : Prop := 1 ≤ clock.qpcFreq.toInt ∧ clock.qpcFreq.toInt ≤ 9223372036

theorem Moderate.positive {clock : Counter} (moderate : Moderate clock) : 0 < clock.qpcFreq.toInt :=
  Int.lt_of_lt_of_le Int.zero_lt_one moderate.1

/-- A count whose time in nanoseconds is a 64-bit number. -/
def Counts (clock : Counter) (c : Int64) : Prop := 0 ≤ c.toInt ∧ ⌊time clock c⌋ < 9223372036854775808

/-- Everything computed for a reading is the integer it stands for. -/
structure Exact (clock : Counter) (c : Int64) : Prop where
  seconds : (c / clock.qpcFreq).toInt = c.toInt / clock.qpcFreq.toInt
  secondsScaled : (c / clock.qpcFreq * 1000000000).toInt = c.toInt / clock.qpcFreq.toInt * 1000000000
  rest : (c % clock.qpcFreq).toInt = c.toInt % clock.qpcFreq.toInt
  restScaled : (c % clock.qpcFreq * 1000000000).toInt = c.toInt % clock.qpcFreq.toInt * 1000000000
  restNanos : (c % clock.qpcFreq * 1000000000 / clock.qpcFreq).toInt =
    c.toInt % clock.qpcFreq.toInt * 1000000000 / clock.qpcFreq.toInt
  sum : (nanos clock c).toInt = c.toInt / clock.qpcFreq.toInt * 1000000000 +
    c.toInt % clock.qpcFreq.toInt * 1000000000 / clock.qpcFreq.toInt
  reading : (nanos clock c).toInt = ⌊time clock c⌋

theorem time_floor {clock : Counter} (moderate : Moderate clock) (c : Int64) :
    ⌊time clock c⌋ = c.toInt * 1000000000 / clock.qpcFreq.toInt :=
  floor_scaled moderate.positive _

section Bounds
variable {seconds rest part freq : Int}

private theorem parts_inRange (secondsNonneg : 0 ≤ seconds) (partNonneg : 0 ≤ part)
    (bounded : seconds * 1000000000 + part < 9223372036854775808) :
    InRange (seconds * 1000000000) ∧ InRange (seconds * 1000000000 + part) := by
  unfold InRange
  omega

private theorem rest_inRange (nonneg : 0 ≤ rest) (less : rest < freq) (fast : freq ≤ 9223372036) : InRange (rest * 1000000000) := by
  unfold InRange
  omega

end Bounds

private theorem billion : (1000000000 : Int64).toInt = 1000000000 := rfl

theorem exact_reading {clock : Counter} (moderate : Moderate clock) {c : Int64} (counts : Counts clock c) : Exact clock c := by
  obtain ⟨nonneg, bounded⟩ := counts
  have positive := moderate.positive
  have split := scale_split positive c.toInt 1000000000
  have seconds := toInt_div nonneg positive
  have rest := @toInt_mod c clock.qpcFreq nonneg
  have restNonneg := Int.emod_nonneg c.toInt positive.ne'
  have restHeld := rest_inRange restNonneg (Int.emod_lt_of_pos c.toInt positive) moderate.2
  have scaledNonneg := Int.mul_nonneg restNonneg (show (0 : Int) ≤ 1000000000 by decide)
  rw [time_floor moderate, ← split] at bounded
  obtain ⟨secondsHeld, sumHeld⟩ :=
    parts_inRange (Int.ediv_nonneg nonneg positive.le) (Int.ediv_nonneg scaledNonneg positive.le) bounded
  have secondsScaled : (c / clock.qpcFreq * 1000000000).toInt = c.toInt / clock.qpcFreq.toInt * 1000000000 := by
    rw [toInt_mul (by rwa [seconds, billion]), seconds, billion]
  have restScaled : (c % clock.qpcFreq * 1000000000).toInt = c.toInt % clock.qpcFreq.toInt * 1000000000 := by
    rw [toInt_mul (by rwa [rest, billion]), rest, billion]
  have restNanos : (c % clock.qpcFreq * 1000000000 / clock.qpcFreq).toInt =
      c.toInt % clock.qpcFreq.toInt * 1000000000 / clock.qpcFreq.toInt := by
    rw [toInt_div (by rwa [restScaled]) positive, restScaled]
  have sum : (nanos clock c).toInt = c.toInt / clock.qpcFreq.toInt * 1000000000 +
      c.toInt % clock.qpcFreq.toInt * 1000000000 / clock.qpcFreq.toInt := by
    rw [nanos, toInt_add (by rwa [secondsScaled, restNanos]), secondsScaled, restNanos]
  exact ⟨seconds, secondsScaled, rest, restScaled, restNanos, sum, by rw [sum, split, time_floor moderate]⟩

theorem reading_held {clock : Counter} {c : Int64} (moderate : Moderate clock) (counts : Counts clock c) :
    0 ≤ (nanos clock c).toInt ∧ (nanos clock c).toInt < 9223372036854775808 := by
  rw [(exact_reading moderate counts).reading]
  refine ⟨?_, counts.2⟩
  rw [time_floor moderate]
  exact Int.ediv_nonneg (Int.mul_nonneg counts.1 (by decide)) moderate.positive.le

/-- Readings are exact but for the fraction of a nanosecond, and do not overflow on
the way; so they never go back, and their differences are off by less than one. -/
theorem nanos_exact {clock : Counter} (moderate : Moderate clock) : (∀ c, Counts clock c → Exact clock c) ∧
    (∀ c later, Counts clock c → Counts clock later → c ≤ later → nanos clock c ≤ nanos clock later) ∧
    ∀ c later, Counts clock c → Counts clock later →
      |((nanos clock later - nanos clock c).toInt : ℚ) - (time clock later - time clock c)| < 1 := by
  refine ⟨fun c counts => exact_reading moderate counts, fun c later counts countsLater ordered => ?_,
    fun c later counts countsLater => ?_⟩
  · rw [Int64.le_iff_toInt_le] at ordered ⊢
    rw [(exact_reading moderate counts).reading, (exact_reading moderate countsLater).reading, time_floor moderate,
      time_floor moderate]
    exact Int.ediv_le_ediv moderate.positive (Int.mul_le_mul_of_nonneg_right ordered (by decide))
  · have ⟨_, _⟩ := reading_held moderate counts
    have ⟨_, _⟩ := reading_held moderate countsLater
    rw [toInt_sub ⟨by omega, by omega⟩, (exact_reading moderate counts).reading, (exact_reading moderate countsLater).reading]
    exact floor_difference _ _

/-- Ten million counts a second, and the last count whose nanoseconds fit. -/
theorem nanos_exact_last : ∃ clock, init 10000000 = some clock ∧ Counts clock 92233720368547758 ∧
    Exact clock 92233720368547758 ∧ nanos clock 92233720368547758 = 9223372036854775800 := by
  have frequency : (10000000 : Int64).toInt = 10000000 := rfl
  have moderate : Moderate ⟨10000000, by decide⟩ := ⟨by rw [frequency]; decide, by rw [frequency]; decide⟩
  have counts : Counts ⟨10000000, by decide⟩ 92233720368547758 := by
    refine ⟨by decide, ?_⟩
    rw [time_floor moderate]
    decide
  exact ⟨_, rfl, counts, (nanos_exact moderate).1 _ counts, by decide⟩

end Kvasir.Clock

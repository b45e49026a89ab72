/-! The Windows clock of the harness: the counts of a performance counter, scaled to
nanoseconds in 64-bit signed arithmetic that wraps around. -/

namespace Kvasir.Clock

/-- A counter whose frequency is not zero, so that no reading divides by zero. -/
structure Counter where
  qpcFreq : Int64
  usable : qpcFreq ≠ 0

/-- The program ends where the system reports no usable clock. -/
def init (qpcFreq : Int64) : Option Counter :=
  if zero : qpcFreq = 0 then none else some ⟨qpcFreq, zero⟩

/-- Split the divide from the multiply. -/
def nanos (clock : Counter) (c : Int64) : Int64 :=
  (c / clock.qpcFreq) * 1000000000 + (c % clock.qpcFreq) * 1000000000 / clock.qpcFreq

end Kvasir.Clock

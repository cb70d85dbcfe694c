import FrameLoop.Binary.Arithmetic

/-! Time as whole nanoseconds: durations, instants counted from an arbitrary
origin, and their conversion to and from floating point seconds. -/

namespace FrameLoop

/-- A length of time in nanoseconds. -/
abbrev Duration := Nat

/-- A point in time, in nanoseconds after an arbitrary origin. -/
abbrev Instant := Nat

namespace Duration

/-- Nanoseconds in one second. -/
def second : Duration := 1000000000

def millisecond : Duration := 1000000

/-- Whole seconds a duration may hold before it is out of range. -/
def maxSeconds : Nat := Nat.pow 2 64

/-- A number of seconds as a duration, rounded to the nearest nanosecond, a tie
going to the even one. Negative, infinite and too large numbers have none. -/
def ofSeconds? {F : FloatFormat} (x : Binary F) : Option Duration :=
  if !x.isFinite || (x.negative && !x.isZero) then none
  else
    let n := x.mantissa * Nat.pow 2 x.scale.toNat
    let d := Nat.pow 2 (-x.scale).toNat
    if maxSeconds * d ≤ n then none else some (divRoundEven (n * second) d)

/-- The duration of one frame at a rate. -/
def ofRate? {F : FloatFormat} (rate : Binary F) : Option Duration :=
  ofSeconds? (Binary.ofNat 1 / rate)

/-- The duration in seconds: whole seconds and nanoseconds are rounded apart,
then added. -/
def seconds {F : FloatFormat} (d : Duration) : Binary F :=
  Binary.ofNat (d / second) + Binary.ofNat (d % second) / Binary.ofNat second

end Duration

/-- Time passed since an earlier instant; zero if it is not earlier. -/
def Instant.since (now start : Instant) : Duration := now - start

end FrameLoop

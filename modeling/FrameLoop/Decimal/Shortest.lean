import FrameLoop.Binary.Format

/-! The shortest decimal that reads back as a given binary number. The reals
that round to a number form an interval, closed exactly if its pattern is even;
the first decimal grid with a point in the interval gives the digits. -/

namespace FrameLoop

/-- `digits * 10 ^ exponent`. -/
structure Decimal where
  digits : Nat
  exponent : Int
  deriving DecidableEq, Repr

/-- Which of two equally near neighbours is taken. -/
inductive Tie
  | even
  | upper
  deriving DecidableEq, Repr

namespace Decimal

/-- Moves trailing zeros into the exponent. -/
def trim : Nat → Decimal → Decimal
  | 0, d => d
  | fuel + 1, d =>
    if d.digits ≠ 0 ∧ d.digits % 10 = 0 then trim fuel ⟨d.digits / 10, d.exponent + 1⟩ else d

/-- The exponent of the largest power of ten not above a positive `n / d`. -/
def log10Ratio (n d : Nat) : Int :=
  if d ≤ n then ((n / d).repr.length : Int) - 1 else -(((d - 1) / n).repr.length : Int)

/-- An interval of positive reals around a value, as multiples of one unit
`unitNum / unitDen`. -/
structure Interval where
  lower : Nat
  value : Nat
  upper : Nat
  closed : Bool
  unitNum : Nat
  unitDen : Nat

/-- The reals that round to the magnitude of `x`. A power of two has its lower
neighbour at half the distance. -/
def Interval.around {F : FloatFormat} (x : Binary F) : Interval :=
  let m := x.mantissa
  let narrow := m == Nat.pow 2 F.fraction && F.least < x.scale
  let place := x.scale - 2
  { lower := 4 * m - (if narrow then 1 else 2)
    value := 4 * m
    upper := 4 * m + 2
    closed := m % 2 == 0
    unitNum := Nat.pow 2 place.toNat
    unitDen := Nat.pow 2 (-place).toNat }

/-- Whether the multiple `c` of `b / a` lies in the interval. -/
def Interval.holds (i : Interval) (a b c : Nat) : Bool :=
  if i.closed then i.lower * a ≤ c * b && c * b ≤ i.upper * a
  else i.lower * a < c * b && c * b < i.upper * a

/-- The multiple of `10 ^ k` in the interval that is nearest to its value. -/
def Interval.nearest? (i : Interval) (tie : Tie) (k : Int) : Option Nat :=
  let a := i.unitNum * Nat.pow 10 (-k).toNat
  let b := i.unitDen * Nat.pow 10 k.toNat
  let below := i.value * a / b
  let above := below + 1
  let nearer :=
    match compare ((below + above) * b) (2 * i.value * a) with
    | .lt => above
    | .gt => below
    | .eq => if tie == .upper || below % 2 == 1 then above else below
  match i.holds a b below, i.holds a b above with
  | true, true => some nearer
  | true, false => some below
  | false, true => some above
  | false, false => none

/-- The fewest digits that read back as the magnitude of a finite number; of
those the nearest. -/
def shortest {F : FloatFormat} (tie : Tie) (x : Binary F) : Decimal :=
  if x.mantissa = 0 then ⟨0, 0⟩ else
  let i := Interval.around x
  let top := log10Ratio (i.value * i.unitNum) i.unitDen
  let found := (List.range 17).findSome? fun (n : Nat) =>
    let k := top - (n : Int)
    (i.nearest? tie k).map fun c => trim 20 ⟨c, k⟩
  found.getD ⟨0, 0⟩

end Decimal

end FrameLoop

import FrameLoop.Binary.Format

/-! Arithmetic on binary floating point numbers: each operation is the exact
one followed by one rounding. -/

namespace FrameLoop.Binary

variable {F : FloatFormat}

def neg (x : Binary F) : Binary F := ⟨!x.negative, x.magnitude, x.magnitude_lt⟩

/-- A finite number as an integer multiple of `2 ^ place`, for a place not above its scale. -/
def aligned (x : Binary F) (place : Int) : Int :=
  let digits : Int := x.mantissa * Nat.pow 2 (x.scale - place).toNat
  if x.negative then -digits else digits

def add (x y : Binary F) : Binary F :=
  if x.isNan || y.isNan then nan
  else if x.isInfinite then
    if y.isInfinite && x.negative != y.negative then nan else x
  else if y.isInfinite then y
  else
    let place := min x.scale y.scale
    let total := x.aligned place + y.aligned place
    if total = 0 then zero (x.negative && y.negative)
    else ofScaled (total < 0) total.natAbs place 1

def mul (x y : Binary F) : Binary F :=
  let negative := x.negative != y.negative
  if x.isNan || y.isNan then nan
  else if x.isInfinite || y.isInfinite then
    if x.isZero || y.isZero then nan else infinite negative
  else ofScaled negative (x.mantissa * y.mantissa) (x.scale + y.scale) 1

def div (x y : Binary F) : Binary F :=
  let negative := x.negative != y.negative
  if x.isNan || y.isNan then nan
  else if x.isInfinite then
    if y.isInfinite then nan else infinite negative
  else if y.isInfinite then zero negative
  else if y.isZero then
    if x.isZero then nan else infinite negative
  else ofScaled negative x.mantissa (x.scale - y.scale) y.mantissa

instance : Neg (Binary F) := ⟨neg⟩

instance : Add (Binary F) := ⟨add⟩

instance : Mul (Binary F) := ⟨mul⟩

instance : Div (Binary F) := ⟨div⟩

/-- The place of a number in increasing order; both zeros have place zero. -/
def rank (x : Binary F) : Int := if x.negative then -(x.magnitude : Int) else x.magnitude

/-- Strictly below; false if either side is not a number. -/
def lt (x y : Binary F) : Bool := !x.isNan && !y.isNan && decide (x.rank < y.rank)

/-- Equal as numbers; false if either side is not a number. -/
def eq (x y : Binary F) : Bool := !x.isNan && !y.isNan && x.rank == y.rank

def isPositive (x : Binary F) : Bool := (zero false).lt x

end FrameLoop.Binary

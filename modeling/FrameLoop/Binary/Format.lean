/-! Binary floating point numbers of any field widths. A finite number is an
integer mantissa times a power of two, and an exact ratio is rounded to the
nearest number, a tie going to the even pattern. -/

namespace FrameLoop

/-- An interchange format, given by the widths of its two fields. -/
structure FloatFormat where
  fraction : Nat
  exponent : Nat
  deriving DecidableEq, Repr

namespace FloatFormat

def single : FloatFormat := ⟨23, 8⟩

def double : FloatFormat := ⟨52, 11⟩

/-- The weight of the sign bit; every magnitude lies below it. -/
def signWeight (F : FloatFormat) : Nat := Nat.pow 2 (F.exponent + F.fraction)

/-- The magnitude pattern of infinity; larger patterns are not numbers. -/
def infinity (F : FloatFormat) : Nat := (Nat.pow 2 F.exponent - 1) * Nat.pow 2 F.fraction

/-- Exponent of the last place of the smallest numbers. -/
def least (F : FloatFormat) : Int := 2 - Nat.pow 2 (F.exponent - 1) - F.fraction

theorem signWeight_pos (F : FloatFormat) : 0 < F.signWeight := Nat.two_pow_pos _

theorem infinity_lt (F : FloatFormat) : F.infinity < F.signWeight := by
  have he := Nat.two_pow_pos F.exponent
  simp only [signWeight, infinity, Nat.pow_eq, Nat.pow_add]
  exact Nat.mul_lt_mul_of_pos_right (by omega) (Nat.two_pow_pos _)

end FloatFormat

/-- A number of format `F`: a sign and the pattern of its magnitude. -/
structure Binary (F : FloatFormat) where
  negative : Bool
  magnitude : Nat
  magnitude_lt : magnitude < F.signWeight
  deriving DecidableEq

abbrev Single := Binary .single

abbrev Double := Binary .double

/-- The quotient rounded to the nearest integer, a tie going to the even one. -/
def divRoundEven (n d : Nat) : Nat :=
  let quotient := n / d
  let twice := 2 * (n % d)
  if twice < d then quotient
  else if d < twice then quotient + 1
  else quotient + quotient % 2

/-- The exponent of the largest power of two not above `n / d`. -/
def log2Ratio (n d : Nat) : Int :=
  let guess : Int := (Nat.log2 n : Int) - Nat.log2 d
  let reached : Bool :=
    if 0 ≤ guess then d * Nat.pow 2 guess.toNat ≤ n else d ≤ n * Nat.pow 2 (-guess).toNat
  if reached then guess else guess - 1

namespace Binary

variable {F : FloatFormat}

def ofBits (bits : Nat) : Binary F :=
  ⟨bits / F.signWeight % 2 == 1, bits % F.signWeight, Nat.mod_lt _ F.signWeight_pos⟩

def toBits (x : Binary F) : Nat :=
  (if x.negative then F.signWeight else 0) + x.magnitude

def zero (negative : Bool) : Binary F := ⟨negative, 0, F.signWeight_pos⟩

def infinite (negative : Bool) : Binary F := ⟨negative, F.infinity, F.infinity_lt⟩

/-- The canonical pattern that is not a number. -/
def nan : Binary F := ofBits (F.infinity + Nat.pow 2 (F.fraction - 1))

def isNan (x : Binary F) : Bool := F.infinity < x.magnitude

def isFinite (x : Binary F) : Bool := x.magnitude < F.infinity

def isInfinite (x : Binary F) : Bool := x.magnitude == F.infinity

def isZero (x : Binary F) : Bool := x.magnitude == 0

/-- The integer significand of a finite number. -/
def mantissa (x : Binary F) : Nat :=
  if x.magnitude < Nat.pow 2 F.fraction then x.magnitude
  else x.magnitude % Nat.pow 2 F.fraction + Nat.pow 2 F.fraction

/-- The power of two that weighs the significand of a finite number. -/
def scale (x : Binary F) : Int :=
  F.least + (x.magnitude / Nat.pow 2 F.fraction - 1 : Nat)

/-- The magnitude pattern nearest to `n / d`. The patterns count the numbers in
increasing order, so a mantissa that rounds up to the next power of two carries
into the exponent field. -/
def roundMagnitude (F : FloatFormat) (n d : Nat) : Nat :=
  if n = 0 then 0 else
  let place := max F.least (log2Ratio n d - F.fraction)
  let mantissa :=
    if 0 ≤ place then divRoundEven n (d * Nat.pow 2 place.toNat)
    else divRoundEven (n * Nat.pow 2 (-place).toNat) d
  min F.infinity ((place - F.least).toNat * Nat.pow 2 F.fraction + mantissa)

theorem roundMagnitude_lt (F : FloatFormat) (n d : Nat) : roundMagnitude F n d < F.signWeight := by
  have h := F.infinity_lt
  unfold roundMagnitude
  split
  · exact F.signWeight_pos
  · exact Nat.lt_of_le_of_lt (Nat.min_le_left _ _) h

/-- The number nearest to `n / d`. -/
def ofRatio (negative : Bool) (n d : Nat) : Binary F :=
  ⟨negative, roundMagnitude F n d, roundMagnitude_lt F n d⟩

/-- The number nearest to `n * 2 ^ e / d`. -/
def ofScaled (negative : Bool) (n : Nat) (e : Int) (d : Nat) : Binary F :=
  if 0 ≤ e then ofRatio negative (n * Nat.pow 2 e.toNat) d
  else ofRatio negative n (d * Nat.pow 2 (-e).toNat)

def ofNat (n : Nat) : Binary F := ofRatio false n 1

def ofInt (i : Int) : Binary F := ofRatio (i < 0) i.natAbs 1

/-- The nearest number of another format. -/
def convert {F G : FloatFormat} (x : Binary F) : Binary G :=
  if x.isNan then nan
  else if x.isInfinite then infinite x.negative
  else ofScaled x.negative x.mantissa x.scale 1

end Binary

end FrameLoop

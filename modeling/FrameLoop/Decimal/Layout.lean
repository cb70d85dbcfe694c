import FrameLoop.Decimal.Shortest

/-! Writing decimals: positional and scientific layouts of the shortest digits,
and a fixed number of places. -/

namespace FrameLoop

/-- How the digits of a number are set out. -/
structure Layout where
  /-- Exponents of the first digit that are written positionally; `none` for all of them. -/
  positional : Option (Int × Int)
  /-- A whole number still shows one decimal. -/
  keepPoint : Bool
  tie : Tie

namespace Layout

/-- Numbers inside a message are always positional and show no empty decimal. -/
def plain : Layout := ⟨none, false, .upper⟩

/-- Numbers of a data file are positional from `0.00001` to below `1e16`, single
precision ones from `0.000001` to below `1e13`. -/
def data (F : FloatFormat) : Layout :=
  ⟨some (if F = .single then (-6, 12) else (-5, 15)), true, .even⟩

/-- Digits with a point after the first `whole` of them. -/
def pointed (ds : List Char) (whole : Nat) : List Char :=
  ds.take whole ++ '.' :: ds.drop whole

/-- The digits in positional notation. -/
def positionalText (keepPoint : Bool) (d : Decimal) : List Char :=
  let ds := Nat.toDigits 10 d.digits
  if 0 ≤ d.exponent then
    ds ++ List.replicate d.exponent.toNat '0' ++ (if keepPoint then ['.', '0'] else [])
  else if 0 < ds.length + d.exponent then
    pointed ds (ds.length + d.exponent).toNat
  else '0' :: '.' :: List.replicate (-(ds.length + d.exponent)).toNat '0' ++ ds

/-- The digits with one of them before the point and a signed exponent. -/
def scientificText (d : Decimal) : List Char :=
  let ds := Nat.toDigits 10 d.digits
  let lead := ds.length - 1 + d.exponent
  (if ds.length ≤ 1 then ds else pointed ds 1) ++
    'e' :: (if 0 ≤ lead then '+' else '-') :: Nat.toDigits 10 lead.natAbs

def render (layout : Layout) (d : Decimal) : List Char :=
  let lead := ((Nat.toDigits 10 d.digits).length : Int) - 1 + d.exponent
  match layout.positional with
  | none => positionalText layout.keepPoint d
  | some (low, high) =>
    if d.digits = 0 ∨ (low ≤ lead ∧ lead ≤ high) then positionalText layout.keepPoint d
    else scientificText d

end Layout

namespace Binary

variable {F : FloatFormat}

def sign (x : Binary F) : String := if x.negative then "-" else ""

/-- The shortest digits of a finite number under a layout. -/
def text (layout : Layout) (x : Binary F) : String :=
  x.sign ++ String.ofList (layout.render (Decimal.shortest layout.tie x))

/-- The number as it stands in a message. -/
def message (x : Binary F) : String :=
  if x.isNan then "NaN"
  else if x.isInfinite then x.sign ++ "inf"
  else x.text .plain

/-- The number in a data file, where only finite numbers have a text. -/
def data? (x : Binary F) : Option String :=
  if x.isFinite then some (x.text (.data F)) else none

/-- The exact value rounded to a fixed number of decimals, a half going to the even digit. -/
def fixed (places : Nat) (x : Binary F) : String :=
  if x.isNan then "NaN"
  else if x.isInfinite then x.sign ++ "inf"
  else
    let n := x.mantissa * Nat.pow 2 x.scale.toNat * Nat.pow 10 places
    let ds := Nat.toDigits 10 (divRoundEven n (Nat.pow 2 (-x.scale).toNat))
    let padded := List.replicate (places + 1 - ds.length) '0' ++ ds
    x.sign ++ String.ofList
      (if places = 0 then padded else Layout.pointed padded (padded.length - places))

end Binary

end FrameLoop

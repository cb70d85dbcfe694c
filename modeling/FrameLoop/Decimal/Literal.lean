import FrameLoop.Decimal.Shortest

/-! Reading decimal literals: a sign, digits around an optional point and a power
of ten, or a word for a value without digits. A literal stands for the number
nearest to it. -/

namespace FrameLoop

namespace Decimal

/-- The value of a row of digits. -/
def value (ds : List Char) : Nat := ds.foldl (fun n c => n * 10 + (c.toNat - '0'.toNat)) 0

/-- The leading digits, and what follows them. -/
def takeDigits (cs : List Char) : List Char × List Char := cs.span Char.isDigit

/-- Whether a sign is negative, and what follows it; no sign is positive. -/
def takeSign : List Char → Bool × List Char
  | '-' :: cs => (true, cs)
  | '+' :: cs => (false, cs)
  | cs => (false, cs)

/-- A row of digits that is not empty and ends the text. -/
def wholeNumber? (cs : List Char) : Option Nat :=
  if !cs.isEmpty && cs.all Char.isDigit then some (value cs) else none

/-- An integer with an optional sign. -/
def integer? (cs : List Char) : Option Int :=
  let (negative, ds) := takeSign cs
  (wholeNumber? ds).map fun n => if negative then -(n : Int) else n

/-- A natural number, which may have a plus sign. -/
def natural? : List Char → Option Nat
  | '+' :: cs => wholeNumber? cs
  | cs => wholeNumber? cs

/-- The power of ten after a number: nothing, or a mark and an integer. -/
def power? : List Char → Option Int
  | [] => some 0
  | c :: cs => if c = 'e' ∨ c = 'E' then integer? cs else none

/-- A number without a sign; there is a digit before the point or after it. -/
def unsigned? (cs : List Char) : Option Decimal :=
  let (whole, rest) := takeDigits cs
  let (places, rest) := match rest with
    | '.' :: rest => takeDigits rest
    | _ => ([], rest)
  if whole.isEmpty && places.isEmpty then none
  else (power? rest).map fun e => ⟨value (whole ++ places), e - places.length⟩

end Decimal

namespace Binary

variable {F : FloatFormat}

/-- The number nearest to a decimal. Powers of ten that are out of the range of the
format, whatever the digits, are not formed. -/
def ofDecimal (negative : Bool) (d : Decimal) : Binary F :=
  if d.digits = 0 then zero negative
  else if 0 ≤ d.exponent then
    if Nat.pow 2 (F.exponent - 1) < 3 * d.exponent then infinite negative
    else ofRatio negative (d.digits * Nat.pow 10 d.exponent.toNat) 1
  else if (Nat.log2 d.digits : Int) + 2 + 3 * d.exponent < F.least then zero negative
  else ofRatio negative d.digits (Nat.pow 10 (-d.exponent).toNat)

/-- Reads a literal; the words are taken in any case. -/
def ofLiteral? (text : String) : Option (Binary F) :=
  let (negative, cs) := Decimal.takeSign text.toList
  let word := String.ofList (cs.map Char.toLower)
  if word = "nan" then some nan
  else if word = "inf" ∨ word = "infinity" then some (infinite negative)
  else (Decimal.unsigned? cs).map (ofDecimal negative)

end Binary

end FrameLoop

import FrameLoop.Binary.Arithmetic
import FrameLoop.Decimal.Layout
import FrameLoop.Json.Scan

/-! Reading JSON numbers. Digits are gathered into a 64-bit significand, which is
scaled by a power of ten with one rounding per operation; the result need not
be the number nearest to the text. -/

namespace FrameLoop.Json

/-- A number as it was written: an integer of 64 bits, or a float. -/
inductive Number
  | natural (n : Nat)
  | negative (i : Int)
  | real (x : Double)
  deriving DecidableEq

def Number.shape : Number → Shape
  | natural n => .integer n
  | negative i => .integer i
  | real x => .real (x.text (.data .double))

/-- Takes digits as long as the significand fits 64 bits; also counts them. -/
def gather : Nat → Nat → Bytes → Nat × Nat × Bytes
  | significand, count, [] => (significand, count, [])
  | significand, count, b :: s =>
    let grown := significand * 10 + Byte.digit b
    if Byte.isDigit b && grown < Nat.pow 2 64 then gather grown (count + 1) s
    else (significand, count, b :: s)

def startsWithDigit (s : Bytes) : Bool := s.head?.any Byte.isDigit

def startsWithExponent (s : Bytes) : Bool := s.head?.any Byte.isExponentMark

def skipDigits (s : Bytes) : Bytes := s.dropWhile Byte.isDigit

def powerOfTen (k : Nat) : Double := .ofNat (Nat.pow 10 k)

/-- `f * 10 ^ e` by multiplying with or dividing by powers up to `10 ^ 308`;
`none` if it overflows. -/
def scaleByTen : Nat → Double → Int → Option Double
  | 0, f, _ => some f
  | fuel + 1, f, e =>
    if e.natAbs ≤ 308 then
      if 0 ≤ e then
        let product := f * powerOfTen e.natAbs
        if product.isInfinite then none else some product
      else some (f / powerOfTen e.natAbs)
    else if f.isZero then some f
    else if 0 ≤ e then none
    else scaleByTen fuel (f / powerOfTen 308) (e + 308)

/-- The float with the given parts. Four divisions take any significand to zero. -/
def assemble (positive : Bool) (significand : Nat) (e : Int) (s : Bytes) :
    Except Fault (Double × Bytes) :=
  match scaleByTen 5 (.ofNat significand) e with
  | none => .error (.behind .numberOutOfRange s)
  | some f => .ok (if positive then f else -f, s)

/-- The digits of an exponent, or `none` with the bytes that follow the digit at
which it leaves 32 bits. -/
def exponentDigits : Nat → Bytes → Option Nat × Bytes
  | e, [] => (some e, [])
  | e, b :: s =>
    if Byte.isDigit b then
      let grown := e * 10 + Byte.digit b
      if grown < Nat.pow 2 31 then exponentDigits grown s else (none, s)
    else (some e, b :: s)

/-- An exponent, after its mark. -/
def exponentPart (positive : Bool) (significand : Nat) (start : Int) (s : Bytes) :
    Except Fault (Double × Bytes) :=
  let (up, s) := match s with
    | b :: rest => if b = Byte.plus then (true, rest) else if b = Byte.minus then (false, rest)
      else (true, s)
    | [] => (true, [])
  match s with
  | [] => .error (.behind .endOfValue [])
  | b :: s =>
    if !Byte.isDigit b then .error (.behind .invalidNumber s)
    else match exponentDigits (Byte.digit b) s with
      | (some e, s) => assemble positive significand (if up then start + e else start - e) s
      | (none, s) =>
        if significand ≠ 0 ∧ up then .error (.behind .numberOutOfRange s)
        else .ok (.zero (!positive), skipDigits s)

/-- Decimals, after the point. -/
def decimalPart (positive : Bool) (significand : Nat) (start : Int) (s : Bytes) :
    Except Fault (Double × Bytes) :=
  let (significand, count, s) := gather significand 0 s
  if count = 0 ∧ !startsWithDigit s then
    .error (.ahead (if s.isEmpty then .endOfValue else .invalidNumber) s)
  else
    let s := skipDigits s
    if startsWithExponent s then exponentPart positive significand (start - count) s.tail
    else assemble positive significand (start - count) s

/-- What follows the integer digits of a float. -/
def fractionPart (positive : Bool) (significand : Nat) (start : Int) (s : Bytes) :
    Except Fault (Double × Bytes) :=
  if s.head? = some Byte.point then decimalPart positive significand start s.tail
  else if startsWithExponent s then exponentPart positive significand start s.tail
  else assemble positive significand start s

/-- An integer of 64 bits if the digits are one, else a float. -/
def finish (positive : Bool) (significand : Nat) (s : Bytes) : Except Fault (Number × Bytes) :=
  if s.head? = some Byte.point ∨ startsWithExponent s then
    (fractionPart positive significand 0 s).map fun (x, s) => (.real x, s)
  else if positive then .ok (.natural significand, s)
  else if 0 < significand ∧ significand ≤ Nat.pow 2 63 then .ok (.negative (-(significand : Int)), s)
  else .ok (.real (-(.ofNat significand)), s)

/-- A number, after its sign. -/
def unsigned (positive : Bool) : Bytes → Except Fault (Number × Bytes)
  | [] => .error (.behind .endOfValue [])
  | b :: s =>
    if !Byte.isDigit b then .error (.behind .invalidNumber s)
    else if Byte.digit b = 0 then
      if startsWithDigit s then .error (.ahead .invalidNumber s) else finish positive 0 s
    else
      let (significand, _, s) := gather (Byte.digit b) 1 s
      if startsWithDigit s then
        let rest := skipDigits s
        let dropped := s.length - rest.length
        (fractionPart positive significand dropped rest).map fun (x, s) => (.real x, s)
      else finish positive significand s

def startsNumber (b : UInt8) : Bool := b == Byte.minus || Byte.isDigit b

/-- A number whose first byte is `b`. -/
def number (b : UInt8) (s : Bytes) : Except Fault (Number × Bytes) :=
  if b = Byte.minus then unsigned false s else unsigned true (b :: s)

/-- The digits of a skipped exponent, after its mark. -/
def skipExponent (s : Bytes) : Except Fault Bytes :=
  let s := match s with
    | b :: rest => if b = Byte.plus ∨ b = Byte.minus then rest else s
    | [] => []
  match s with
  | [] => .error (.behind .invalidNumber [])
  | b :: s => if Byte.isDigit b then .ok (skipDigits s) else .error (.behind .invalidNumber s)

/-- What follows the integer digits of a skipped number. -/
def skipFraction (s : Bytes) : Except Fault Bytes :=
  if s.head? = some Byte.point then
    let s := s.tail
    if !startsWithDigit s then .error (.ahead .invalidNumber s)
    else
      let s := skipDigits s
      if startsWithExponent s then skipExponent s.tail else .ok s
  else if startsWithExponent s then skipExponent s.tail
  else .ok s

/-- A number whose value does not matter, after its sign. -/
def skipUnsigned : Bytes → Except Fault Bytes
  | [] => .error (.behind .invalidNumber [])
  | b :: s =>
    if !Byte.isDigit b then .error (.behind .invalidNumber s)
    else if Byte.digit b = 0 then
      if startsWithDigit s then .error (.ahead .invalidNumber s) else skipFraction s
    else skipFraction (skipDigits s)

def skipNumber (b : UInt8) (s : Bytes) : Except Fault Bytes :=
  if b = Byte.minus then skipUnsigned s else skipUnsigned (b :: s)

end FrameLoop.Json

import FrameLoop.Json.Error

/-! Scanning the lexical parts of a JSON text: blanks, words and strings. Each
scanner takes the unread bytes and returns what is left of them. -/

namespace FrameLoop.Json

namespace Byte

def quote : UInt8 := 34
def plus : UInt8 := 43
def comma : UInt8 := 44
def minus : UInt8 := 45
def point : UInt8 := 46
def slash : UInt8 := 47
def colon : UInt8 := 58
def openBracket : UInt8 := 91
def backslash : UInt8 := 92
def closeBracket : UInt8 := 93
def openBrace : UInt8 := 123
def closeBrace : UInt8 := 125

def isBlank (b : UInt8) : Bool := b == 32 || b == 10 || b == 9 || b == 13

def isDigit (b : UInt8) : Bool := 48 ≤ b && b ≤ 57

/-- The value of a decimal digit. -/
def digit (b : UInt8) : Nat := b.toNat - 48

def isExponentMark (b : UInt8) : Bool := b == 101 || b == 69

def isControl (b : UInt8) : Bool := b < 32

/-- The value of a hexadecimal digit. -/
def hex? (b : UInt8) : Option Nat :=
  if isDigit b then some (digit b)
  else if 97 ≤ b && b ≤ 102 then some (b.toNat - 87)
  else if 65 ≤ b && b ≤ 70 then some (b.toNat - 55)
  else none

end Byte

def skipBlank (s : Bytes) : Bytes := s.dropWhile Byte.isBlank

/-- The rest of a word whose first letter has been read. -/
def word : Bytes → Bytes → Except Fault Bytes
  | [], s => .ok s
  | _ :: _, [] => .error (.behind .endOfValue [])
  | e :: es, b :: s => if b = e then word es s else .error (.behind .expectedIdent s)

/-- The letters of `null`, `true` and `false` after the first. -/
def wordTail (b : UInt8) : Option (Bytes × Shape) :=
  if b = 110 then some ([117, 108, 108], .null)
  else if b = 116 then some ([114, 117, 101], .boolean true)
  else if b = 102 then some ([97, 108, 115, 101], .boolean false)
  else none

/-- The four hexadecimal digits of an escape. -/
def hexUnit : Bytes → Except Fault (Nat × Bytes)
  | a :: b :: c :: d :: s =>
    match Byte.hex? a, Byte.hex? b, Byte.hex? c, Byte.hex? d with
    | some a, some b, some c, some d => .ok (((a * 16 + b) * 16 + c) * 16 + d, s)
    | _, _, _, _ => .error (.behind .invalidEscape s)
  | _ => .error (.behind .endOfString [])

/-- The one-letter escapes. -/
def simpleEscape? (b : UInt8) : Option UInt8 :=
  if b = Byte.quote ∨ b = Byte.backslash ∨ b = Byte.slash then some b
  else if b = 98 then some 8
  else if b = 102 then some 12
  else if b = 110 then some 10
  else if b = 114 then some 13
  else if b = 116 then some 9
  else none

def isLeading (unit : Nat) : Bool := 0xD800 ≤ unit && unit ≤ 0xDBFF

def isTrailing (unit : Nat) : Bool := 0xDC00 ≤ unit && unit ≤ 0xDFFF

/-- The bytes that encode a code point. -/
def utf8 (code : Nat) : Bytes := (String.utf8EncodeChar (Char.ofNat code))

/-- A code point written as one unit or as a pair of surrogates. -/
def unicodeEscape (s : Bytes) : Except Fault (Nat × Bytes) := do
  let (lead, s) ← hexUnit s
  if isTrailing lead then .error (.behind .loneSurrogate s)
  else if !isLeading lead then .ok (lead, s)
  else match s with
    | [] => .error (.behind .endOfString [])
    | b :: s =>
      if b ≠ Byte.backslash then .error (.behind .unfinishedSurrogate s)
      else match s with
        | [] => .error (.behind .endOfString [])
        | b :: s =>
          if b ≠ 117 then .error (.behind .unfinishedSurrogate s)
          else do
            let (trail, s) ← hexUnit s
            if isTrailing trail then
              .ok ((lead - 0xD800) * 0x400 + (trail - 0xDC00) + 0x10000, s)
            else .error (.behind .loneSurrogate s)

/-- What an escape stands for, after its backslash. -/
def escape : Bytes → Except Fault (Bytes × Bytes)
  | [] => .error (.behind .endOfString [])
  | b :: s =>
    if b = 117 then (unicodeEscape s).map fun (code, s) => (utf8 code, s)
    else match simpleEscape? b with
      | some c => .ok ([c], s)
      | none => .error (.behind .invalidEscape s)

/-- The content of a string up to its closing quote, in reverse before `fuel`
characters are read. -/
def stringLoop : Nat → Bytes → Bytes → Except Fault (Bytes × Bytes)
  | 0, _, s => .error (.behind .endOfString s)
  | fuel + 1, read, s =>
    match s with
    | [] => .error (.behind .endOfString [])
    | b :: s =>
      if b = Byte.quote then .ok (read.reverse, s)
      else if b = Byte.backslash then
        match escape s with
        | .error f => .error f
        | .ok (c, s) => stringLoop fuel (c.reverse ++ read) s
      else if Byte.isControl b then .error (.behind .controlCharacter s)
      else stringLoop fuel (b :: read) s

/-- The content of a string, after its opening quote. -/
def string (s : Bytes) : Except Fault (Bytes × Bytes) := stringLoop (s.length + 1) [] s

/-- An escape whose meaning does not matter: surrogates need no partner. -/
def skipEscape : Bytes → Except Fault Bytes
  | [] => .error (.behind .endOfString [])
  | b :: s =>
    if b = 117 then (hexUnit s).map Prod.snd
    else if (simpleEscape? b).isSome then .ok s
    else .error (.behind .invalidEscape s)

def skipStringLoop : Nat → Bytes → Except Fault Bytes
  | 0, s => .error (.behind .endOfString s)
  | fuel + 1, s =>
    match s with
    | [] => .error (.behind .endOfString [])
    | b :: rest =>
      if b = Byte.quote then .ok rest
      else if b = Byte.backslash then
        match skipEscape rest with
        | .error f => .error f
        | .ok s => skipStringLoop fuel s
      else if Byte.isControl b then .error (.behind .controlCharacter s)
      else skipStringLoop fuel rest

/-- A string whose content does not matter, after its opening quote. -/
def skipString (s : Bytes) : Except Fault Bytes := skipStringLoop (s.length + 1) s

end FrameLoop.Json

import FrameLoop.Decimal.Layout
import FrameLoop.Telemetry.FrameStats

/-! The line that reports one frame: a compact JSON object, made of the pieces in
which it is written. -/

namespace FrameLoop.Line

def hexDigit (n : Nat) : Char := Nat.digitChar n

/-- The escape of a character that cannot stand in a string as itself. -/
def escape? (c : Char) : Option (List Char) :=
  if c = '"' ∨ c = '\\' then some ['\\', c]
  else if 32 ≤ c.toNat then none
  else if c.toNat = 8 then some ['\\', 'b']
  else if c.toNat = 9 then some ['\\', 't']
  else if c.toNat = 10 then some ['\\', 'n']
  else if c.toNat = 12 then some ['\\', 'f']
  else if c.toNat = 13 then some ['\\', 'r']
  else some ['\\', 'u', '0', '0', hexDigit (c.toNat / 16), hexDigit (c.toNat % 16)]

/-- Runs of plain characters and single escapes, in turn; `plain` is the run read
so far, in reverse. -/
def fragments (plain : List Char) : List Char → List String
  | [] => if plain.isEmpty then [] else [String.ofList plain.reverse]
  | c :: cs =>
    match escape? c with
    | none => fragments (c :: plain) cs
    | some e =>
      (if plain.isEmpty then [] else [String.ofList plain.reverse]) ++
        String.ofList e :: fragments [] cs

def stringPieces (s : String) : List String := ["\""] ++ fragments [] s.toList ++ ["\""]

/-- Only finite numbers have a text. -/
def numberText (x : Double) : String := x.data?.getD "null"

def attributePieces (a : String × Double) : List String :=
  stringPieces a.1 ++ [":", numberText a.2]

/-- The members of an object, with commas between them. -/
def memberPieces : List (String × Double) → List String
  | [] => []
  | [a] => attributePieces a
  | a :: rest => attributePieces a ++ "," :: memberPieces rest

/-- The object that reports a frame. -/
def objectPieces (frame : Nat) (attributes : Attributes) : List String :=
  ["\x7b"] ++ stringPieces "frame" ++ [":", toString frame, ","] ++
    stringPieces "attributes" ++ [":", "\x7b"] ++ memberPieces attributes ++ ["\x7d", "\x7d"]

/-- The whole line. -/
def pieces (frame : Nat) (attributes : Attributes) : List String :=
  objectPieces frame attributes ++ ["\n"]

end FrameLoop.Line

/-! What can be wrong with a JSON text, where, and in which words. -/

namespace FrameLoop.Json

abbrev Bytes := List UInt8

/-- The kind of value that stands where another was wanted. -/
inductive Shape
  | null
  | boolean (b : Bool)
  | integer (i : Int)
  | real (text : String)
  | string (quoted : String)
  | sequence
  | map
  deriving DecidableEq, Repr

def Shape.text : Shape → String
  | null => "null"
  | boolean b => s!"boolean `{b}`"
  | integer i => s!"integer `{i}`"
  | real t => s!"floating point `{t}`"
  | string q => s!"string {q}"
  | sequence => "sequence"
  | map => "map"

inductive Cause
  | endOfList
  | endOfObject
  | endOfString
  | endOfValue
  | expectedColon
  | expectedCommaOrBracket
  | expectedCommaOrBrace
  | expectedIdent
  | expectedValue
  | invalidEscape
  | invalidNumber
  | numberOutOfRange
  | controlCharacter
  | keyNotString
  | loneSurrogate
  | trailingComma
  | trailingCharacters
  | unfinishedSurrogate
  | tooDeep
  | wrongType (found : Shape) (wanted : String)
  | wrongValue (found : Shape) (wanted : String)
  | repeatedField (key : String)
  deriving DecidableEq, Repr

inductive Category
  | malformed
  | data
  | ended
  deriving DecidableEq, Repr

namespace Cause

def text : Cause → String
  | endOfList => "EOF while parsing a list"
  | endOfObject => "EOF while parsing an object"
  | endOfString => "EOF while parsing a string"
  | endOfValue => "EOF while parsing a value"
  | expectedColon => "expected `:`"
  | expectedCommaOrBracket => "expected `,` or `]`"
  | expectedCommaOrBrace => "expected `,` or `\x7d`"
  | expectedIdent => "expected ident"
  | expectedValue => "expected value"
  | invalidEscape => "invalid escape"
  | invalidNumber => "invalid number"
  | numberOutOfRange => "number out of range"
  | controlCharacter => "control character (\\u0000-\\u001F) found while parsing a string"
  | keyNotString => "key must be a string"
  | loneSurrogate => "lone leading surrogate in hex escape"
  | trailingComma => "trailing comma"
  | trailingCharacters => "trailing characters"
  | unfinishedSurrogate => "unexpected end of hex escape"
  | tooDeep => "recursion limit exceeded"
  | wrongType found wanted => s!"invalid type: {found.text}, expected {wanted}"
  | wrongValue found wanted => s!"invalid value: {found.text}, expected {wanted}"
  | repeatedField key => s!"duplicate field `{key}`"

def category : Cause → Category
  | endOfList | endOfObject | endOfString | endOfValue => .ended
  | wrongType _ _ | wrongValue _ _ | repeatedField _ => .data
  | _ => .malformed

end Cause

/-- A cause and the number of bytes that are still unread where it arose. -/
structure Fault where
  cause : Cause
  left : Nat
  deriving DecidableEq, Repr

/-- A fault about what has been read so far. -/
def Fault.behind (cause : Cause) (rest : Bytes) : Fault := ⟨cause, rest.length⟩

/-- A fault about the next byte, which it points at; at the end of the text it
points at the end. -/
def Fault.ahead (cause : Cause) (rest : Bytes) : Fault := ⟨cause, rest.length - 1⟩

/-- A cause with its line, counted from one, and its column, in bytes. -/
structure Error where
  cause : Cause
  line : Nat
  column : Nat
  deriving DecidableEq, Repr

def newline : UInt8 := 10

/-- The place of a fault in the text it was found in. -/
def Fault.locate (text : Bytes) (f : Fault) : Error :=
  let before := text.take (text.length - f.left)
  { cause := f.cause
    line := before.count newline + 1
    column := (before.reverse.takeWhile (· != newline)).length }

def Error.message (e : Error) : String :=
  s!"{e.cause.text} at line {e.line} column {e.column}"

end FrameLoop.Json

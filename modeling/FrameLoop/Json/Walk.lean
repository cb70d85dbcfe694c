import FrameLoop.Json.Number

/-! Walking over a whole JSON value of any depth with an explicit stack of open
brackets. The walk that skips unknown values and the walk that checks a text
follow one machine and differ in their rules. -/

namespace FrameLoop.Json

/-- An open bracket. -/
inductive Frame
  | list
  | object
  deriving DecidableEq, Repr

namespace Frame

def close : Frame → UInt8
  | list => Byte.closeBracket
  | object => Byte.closeBrace

def ended : Frame → Cause
  | list => .endOfList
  | object => .endOfObject

def separator : Frame → Cause
  | list => .expectedCommaOrBracket
  | object => .expectedCommaOrBrace

end Frame

/-- What distinguishes one walk from another. -/
structure Rules where
  number : UInt8 → Bytes → Except Fault Bytes
  string : Bytes → Except Fault Bytes
  /-- The fault, if any, in what stands after a comma. -/
  afterComma : Frame → Bytes → Option Fault
  /-- Open brackets at which the walk gives up. -/
  limit : Option Nat

namespace Rules

/-- Values that are read over: numbers of any size and lone surrogates pass, at any depth. -/
def skipping : Rules where
  number := skipNumber
  string := skipString
  afterComma := fun _ _ => none
  limit := none

/-- Values that are read for themselves. -/
def checking : Rules where
  number := fun b s => (Json.number b s).map Prod.snd
  string := fun s => (Json.string s).map Prod.snd
  afterComma := fun frame s =>
    match s with
    | [] => some (.ahead .endOfValue [])
    | b :: _ => if b = frame.close then some (.ahead .trailingComma s) else none
  limit := some 128

end Rules

/-- What the walk looks for next. -/
inductive Expect
  /-- The next value. -/
  | value
  /-- The next member of the innermost bracket. -/
  | member
  /-- A closing bracket, or a comma if `comma`, or else the first member. -/
  | close (comma : Bool)
  deriving DecidableEq, Repr

structure Walk where
  expect : Expect
  frames : List Frame
  rest : Bytes

namespace Walk

def enter (rules : Rules) (frame : Frame) (frames : List Frame) (s rest : Bytes) :
    Except Fault Walk :=
  if rules.limit.any (· ≤ frames.length + 1) then .error (.ahead .tooDeep s)
  else .ok ⟨.close false, frame :: frames, rest⟩

def value (rules : Rules) (frames : List Frame) (s : Bytes) : Except Fault Walk :=
  let s := skipBlank s
  match s with
  | [] => .error (.ahead .endOfValue [])
  | b :: rest =>
    let scalar (r : Except Fault Bytes) : Except Fault Walk := r.map fun s => ⟨.close true, frames, s⟩
    if b = Byte.quote then scalar (rules.string rest)
    else if startsNumber b then scalar (rules.number b rest)
    else if b = Byte.openBracket then enter rules .list frames s rest
    else if b = Byte.openBrace then enter rules .object frames s rest
    else match wordTail b with
      | some (tail, _) => scalar (word tail rest)
      | none => .error (.ahead .expectedValue s)

/-- The colon after a key. -/
def colon (s : Bytes) : Except Fault Bytes :=
  match skipBlank s with
  | [] => .error (.ahead .endOfObject [])
  | b :: rest => if b = Byte.colon then .ok rest else .error (.ahead .expectedColon (b :: rest))

def member (rules : Rules) (frame : Frame) (frames : List Frame) (s : Bytes) :
    Except Fault Walk :=
  match frame with
  | .list => .ok ⟨.value, frame :: frames, s⟩
  | .object =>
    match skipBlank s with
    | [] => .error (.ahead .endOfObject [])
    | b :: rest =>
      if b = Byte.quote then do
        let s ← rules.string rest
        let s ← colon s
        .ok ⟨.value, frame :: frames, s⟩
      else .error (.ahead .keyNotString (b :: rest))

def close (rules : Rules) (comma : Bool) (frame : Frame) (frames : List Frame) (s : Bytes) :
    Except Fault Walk :=
  match skipBlank s with
  | [] => .error (.ahead frame.ended [])
  | b :: rest =>
    if comma && b == Byte.comma then
      match rules.afterComma frame (skipBlank rest) with
      | some f => .error f
      | none => .ok ⟨.member, frame :: frames, rest⟩
    else if b = frame.close then .ok ⟨.close true, frames, rest⟩
    else if comma then .error (.ahead frame.separator (b :: rest))
    else .ok ⟨.member, frame :: frames, b :: rest⟩

/-- One step of the walk, or the unread bytes after the whole value. -/
def step (rules : Rules) (w : Walk) : Except Fault (Bytes ⊕ Walk) :=
  match w.expect, w.frames with
  | .value, frames => (value rules frames w.rest).map .inr
  | _, [] => .ok (.inl w.rest)
  | .member, frame :: frames => (member rules frame frames w.rest).map .inr
  | .close comma, frame :: frames => (close rules comma frame frames w.rest).map .inr

def run (rules : Rules) : Nat → Walk → Except Fault Bytes
  | 0, w => .error (.behind .endOfValue w.rest)
  | fuel + 1, w =>
    match step rules w with
    | .error f => .error f
    | .ok (.inl rest) => .ok rest
    | .ok (.inr w) => run rules fuel w

end Walk

/-- Reads over one value. Between two bytes the walk takes at most two steps. -/
def walk (rules : Rules) (s : Bytes) : Except Fault Bytes :=
  Walk.run rules (3 * s.length + 3) ⟨.value, [], s⟩

/-- Only blanks may follow the value of a text. -/
def atEnd (s : Bytes) : Except Fault Unit :=
  match skipBlank s with
  | [] => .ok ()
  | s => .error (.ahead .trailingCharacters s)

/-- The error in a text that is not one JSON value. -/
def check (text : Bytes) : Except Error Unit :=
  match walk .checking text >>= atEnd with
  | .ok () => .ok ()
  | .error f => .error (f.locate text)

end FrameLoop.Json

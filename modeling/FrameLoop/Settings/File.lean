import FrameLoop.Json.Walk
import FrameLoop.Settings.Basic
import FrameLoop.Storage.Basic
import FrameLoop.Text.Quoted

/-! Settings kept in a file, as JSON. A file is an object whose known members override
the defaults, or an array of values in the order of the fields; it is written with one
field per line, indented. -/

namespace FrameLoop.Settings

open Json

/-- The fault of a value that is not of the wanted kind. Words, numbers and
strings are read first, brackets are not. -/
def mistyped (wanted : String) (s : Bytes) : Fault :=
  match s with
  | [] => .ahead .endOfValue []
  | b :: rest =>
    if b = Byte.quote then
      match Json.string rest with
      | .error f => f
      | .ok (content, rest) =>
        let text := (String.fromUTF8? ⟨content.toArray⟩).getD ""
        .behind (.wrongType (.string (Text.quoted text)) wanted) rest
    else if startsNumber b then
      match Json.number b rest with
      | .error f => f
      | .ok (n, rest) => .behind (.wrongType n.shape wanted) rest
    else if b = Byte.openBracket then .behind (.wrongType .sequence wanted) s
    else if b = Byte.openBrace then .behind (.wrongType .map wanted) s
    else match wordTail b with
      | some (tail, shape) =>
        match word tail rest with
        | .error f => f
        | .ok rest => .behind (.wrongType shape wanted) rest
      | none => .ahead .expectedValue s

/-- A number of the wanted kind. -/
def readNumber {α : Type} (wanted : String) (accept : Number → Except Cause α) (s : Bytes) :
    Except Fault (α × Bytes) :=
  match skipBlank s with
  | [] => .error (.ahead .endOfValue [])
  | b :: rest =>
    if startsNumber b then
      match Json.number b rest with
      | .error f => .error f
      | .ok (n, rest) =>
        match accept n with
        | .error cause => .error (.behind cause rest)
        | .ok x => .ok (x, rest)
    else .error (mistyped wanted (b :: rest))

/-- The nearest float; integers are rounded once. -/
def acceptFloat {F : FloatFormat} : Number → Except Cause (Binary F)
  | .natural n => .ok (.ofNat n)
  | .negative i => .ok (.ofInt i)
  | .real x => .ok x.convert

/-- An integer of 32 bits. -/
def acceptInteger (n : Number) : Except Cause Int :=
  match n with
  | .natural k =>
    if k < Nat.pow 2 31 then .ok k else .error (.wrongValue n.shape "i32")
  | .negative i =>
    if -Nat.pow 2 31 ≤ i then .ok i else .error (.wrongValue n.shape "i32")
  | .real _ => .error (.wrongType n.shape "i32")

def readSingle : Bytes → Except Fault (Single × Bytes) := readNumber "f32" acceptFloat

def readDouble : Bytes → Except Fault (Double × Bytes) := readNumber "f64" acceptFloat

def readInteger : Bytes → Except Fault (Int × Bytes) := readNumber "i32" acceptInteger

def readBoolean (s : Bytes) : Except Fault (Bool × Bytes) :=
  match skipBlank s with
  | [] => .error (.ahead .endOfValue [])
  | b :: rest =>
    match wordTail b with
    | some (tail, .boolean v) => (word tail rest).map fun rest => (v, rest)
    | _ => .error (mistyped "a boolean" (b :: rest))

/-- A value for a field. -/
def Field.read (f : Field) (s : Bytes) : Except Fault (Assignment × Bytes) :=
  match f with
  | .framerateLimit => (readSingle s).map fun (x, s) => (.framerateLimit x, s)
  | .scriptWorkerThreads => (readInteger s).map fun (n, s) => (.scriptWorkerThreads n, s)
  | .physicsWorkerThreads => (readInteger s).map fun (n, s) => (.physicsWorkerThreads n, s)
  | .collectStats => (readBoolean s).map fun (b, s) => (.collectStats b, s)
  | .useSound => (readBoolean s).map fun (b, s) => (.useSound b, s)
  | .statsSummaryInterval => (readDouble s).map fun (x, s) => (.statsSummaryInterval x, s)

/-- The field with a key, given as the bytes of the unescaped string. -/
def Field.ofKey? (key : Bytes) : Option Field :=
  Field.all.find? fun f => f.key.toUTF8.toList == key

/-- Where the reader stands after it has looked for the end of an object. -/
def pastBrace (s : Bytes) : Bytes :=
  match skipBlank s with
  | [] => []
  | b :: rest => if b = Byte.closeBrace then rest else b :: rest

/-- A member, after the opening quote of its key; unknown keys give nothing. -/
def readMember (seen : List Field) (s : Bytes) : Except Fault (Option Assignment × Bytes) := do
  let (key, s) ← Json.string s
  match Field.ofKey? key with
  | none =>
    let s ← Walk.colon s
    let s ← walk .skipping s
    .ok (none, s)
  | some f =>
    if f ∈ seen then .error (.behind (.repeatedField f.key) (pastBrace s))
    else
      let s ← Walk.colon s
      let (a, s) ← f.read s
      .ok (some a, s)

/-- The members of an object up to and with its closing brace, added in reverse
to those already read. -/
def readMembers : Nat → Bool → List Assignment → Bytes → Except Fault (List Assignment × Bytes)
  | 0, _, _, s => .error (.behind .endOfObject s)
  | fuel + 1, first, read, s =>
    let next (s : Bytes) := do
      let (a, s) ← readMember (read.map Assignment.field) s
      readMembers fuel false (a.toList ++ read) s
    match skipBlank s with
    | [] => .error (.ahead .endOfObject [])
    | b :: rest =>
      if b = Byte.closeBrace then .ok (read, rest)
      else if first then
        if b = Byte.quote then next rest else .error (.ahead .keyNotString (b :: rest))
      else if b = Byte.comma then
        match skipBlank rest with
        | [] => .error (.ahead .endOfValue [])
        | b :: rest =>
          if b = Byte.quote then next rest
          else if b = Byte.closeBrace then .error (.ahead .trailingComma (b :: rest))
          else .error (.ahead .keyNotString (b :: rest))
      else .error (.ahead .expectedCommaOrBrace (b :: rest))

/-- The end of an array whose elements have all been read. -/
def endArray (s : Bytes) : Except Fault Bytes :=
  match skipBlank s with
  | [] => .error (.ahead .endOfList [])
  | b :: rest =>
    if b = Byte.closeBracket then .ok rest
    else if b = Byte.comma then
      let s := skipBlank rest
      .error (.ahead (if s.head? = some Byte.closeBracket then .trailingComma
        else .trailingCharacters) s)
    else .error (.ahead .trailingCharacters (b :: rest))

/-- The elements of an array, for the given fields in turn, with its closing bracket. -/
def readElements (first : Bool) (read : List Assignment) :
    List Field → Bytes → Except Fault (List Assignment × Bytes)
  | [], s => (endArray s).map fun s => (read, s)
  | f :: fields, s =>
    match skipBlank s with
    | [] => .error (.ahead .endOfList [])
    | b :: rest =>
      if b = Byte.closeBracket then .ok (read, rest)
      else if first then do
        let (a, s) ← f.read (b :: rest)
        readElements false (a :: read) fields s
      else if b = Byte.comma then
        match skipBlank rest with
        | [] => .error (.ahead .endOfValue [])
        | b :: rest =>
          if b = Byte.closeBracket then .error (.ahead .trailingComma (b :: rest))
          else do
            let (a, s) ← f.read (b :: rest)
            readElements false (a :: read) fields s
      else .error (.ahead .expectedCommaOrBracket (b :: rest))

/-- The assignments of a settings value, last one first. -/
def readAssignments (s : Bytes) : Except Fault (List Assignment × Bytes) :=
  match skipBlank s with
  | [] => .error (.ahead .endOfValue [])
  | b :: rest =>
    if b = Byte.openBrace then readMembers (rest.length + 1) true [] rest
    else if b = Byte.openBracket then readElements true [] Field.all rest
    else .error (mistyped "struct EngineSettings" (b :: rest))

/-- The defaults, overridden by assignments of which the last comes first. -/
def override (assignments : List Assignment) : Settings := assignments.foldr (flip assign) defaults

/-- The settings in a text, before they are checked. -/
def parse (text : Bytes) : Except Json.Error Settings :=
  let read : Except Fault Settings := do
    let (assignments, s) ← readAssignments text
    atEnd s
    return override assignments
  read.mapError (Fault.locate text)

/-- The settings in a text, if they are acceptable, and what is logged. -/
def ofJson (text : String) : Except EngineError Settings × List Record :=
  match parse text.toUTF8.toList with
  | .error e => (.error (.json e), [])
  | .ok s => (s.validate.1.map fun () => s, s.validate.2)

/-- A float, or nothing where it is not finite. -/
def floatText {F : FloatFormat} (x : Binary F) : String := x.data?.getD "null"

def Assignment.text : Assignment → String
  | framerateLimit x => floatText x
  | scriptWorkerThreads n => toString n
  | physicsWorkerThreads n => toString n
  | collectStats b => toString b
  | useSound b => toString b
  | statsSummaryInterval x => floatText x

def Assignment.line (a : Assignment) : String := s!"  \"{a.field.key}\": {a.text}"

def toJson (s : Settings) : String :=
  "\x7b\n" ++ ",\n".intercalate (Field.all.map fun f => (s.get f).line) ++ "\n\x7d"

section

variable {φ ω : Type} [Storage φ ω]

/-- Reads and checks a settings file. -/
def load (path : String) (storage : φ) : Except EngineError Settings × List Record :=
  match Storage.read path storage with
  | .error f => (.error (.file path f), [])
  | .ok text =>
    match ofJson text with
    | (.error e, log) => (.error e, log)
    | (.ok s, log) => (.ok s, log ++ [⟨.info, s!"Loaded settings from '{path}'"⟩])

/-- Writes a settings file. -/
def save (s : Settings) (path : String) (storage : φ) :
    Except EngineError Unit × List Record × φ :=
  match Storage.save path s.toJson storage with
  | (.error f, storage) => (.error (.file path f), [], storage)
  | (.ok (), storage) => (.ok (), [⟨.info, s!"Saved settings to '{path}'"⟩], storage)

end

end FrameLoop.Settings

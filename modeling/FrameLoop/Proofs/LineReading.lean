import FrameLoop.Proofs.Json.Skipping
import FrameLoop.Proofs.LineText

/-! A reader of report lines, and the lines that are read: each gives back its frame number and its
names, and tells which of them have a number. -/

namespace FrameLoop

open Json

namespace LineReader

def expect (b : UInt8) : Bytes → Except Fault Bytes
  | [] => .error (.ahead .endOfValue [])
  | c :: s => if c = b then .ok s else .error (.ahead .expectedValue (c :: s))

def text (s : Bytes) : Except Fault (Bytes × Bytes) := expect Byte.quote s >>= Json.string

def natural : Bytes → Except Fault (Nat × Bytes)
  | [] => .error (.ahead .endOfValue [])
  | b :: s =>
    match Json.number b s with
    | .ok (.natural n, s) => .ok (n, s)
    | .ok (n, s) => .error (.behind (.wrongType n.shape "u64") s)
    | .error f => .error f

/-- Whether a number or `null` stands here. -/
def value : Bytes → Except Fault (Bool × Bytes)
  | [] => .error (.ahead .endOfValue [])
  | b :: s =>
    if startsNumber b then (skipNumber b s).map (true, ·)
    else match wordTail b with
      | some (tail, .null) => (word tail s).map (false, ·)
      | _ => .error (.ahead .expectedValue (b :: s))

def member (s : Bytes) : Except Fault ((Bytes × Bool) × Bytes) := do
  let (name, s) ← text s
  let s ← expect Byte.colon s
  let (isNumber, s) ← value s
  return ((name, isNumber), s)

def members : Nat → Bytes → Except Fault (List (Bytes × Bool) × Bytes)
  | 0, s => .error (.behind .endOfObject s)
  | fuel + 1, s => do
    let (a, s) ← member s
    if s.head? = some Byte.comma then
      let (as, s) ← members fuel s.tail
      return (a :: as, s)
    else return ([a], s)

/-- The members of an object, up to its closing bracket. -/
def content (s : Bytes) : Except Fault (List (Bytes × Bool) × Bytes) :=
  if s.head? = some Byte.closeBrace then .ok ([], s) else members s.length s

def key (name : String) (s : Bytes) : Except Fault Bytes := do
  let (k, s) ← text s
  if k = name.toUTF8.toList then expect Byte.colon s else .error (.ahead .expectedValue s)

/-- The object of a line: the frame, and the names with whether each has a number. -/
def record (s : Bytes) : Except Fault (Nat × List (Bytes × Bool)) := do
  let s ← expect Byte.openBrace s
  let s ← key "frame" s
  let (frame, s) ← natural s
  let s ← expect Byte.comma s
  let s ← key "attributes" s
  let s ← expect Byte.openBrace s
  let (attributes, s) ← content s
  let s ← expect Byte.closeBrace s
  let s ← expect Byte.closeBrace s
  if s = [] then .ok (frame, attributes) else .error (.ahead .trailingCharacters s)

end LineReader

namespace Line

def bytes (pieces : List String) : Bytes := encode (String.join pieces).toList

variable (pieces pieces' : List String) (piece : String)

theorem bytes_nil : bytes [] = [] := by simp [bytes]

theorem bytes_cons : bytes (piece :: pieces) = encode piece.toList ++ bytes pieces := by
  rw [bytes, String.join_cons, String.toList_append, encode_append]
  rfl

theorem bytes_append : bytes (pieces ++ pieces') = bytes pieces ++ bytes pieces' := by
  rw [bytes, String.join_append, String.toList_append, encode_append]
  rfl

def quoted (s : String) : Bytes :=
  Byte.quote :: (encode (escaped s.toList) ++ [Byte.quote])

theorem bytes_stringPieces (s : String) : bytes (stringPieces s) = quoted s := by
  have hquote : encode "\"".toList = [Byte.quote] := by decide
  have hinner : bytes (fragments [] s.toList) = encode (escaped s.toList) := by
    rw [bytes, join_fragments]
    rfl
  rw [stringPieces, bytes_append, bytes_append, hinner, bytes_cons, hquote, bytes_nil]
  rfl

def memberBytes (a : String × Double) : Bytes :=
  quoted a.1 ++ Byte.colon :: encode (numberText a.2).toList

def furtherBytes : List (String × Double) → Bytes
  | [] => []
  | a :: as => Byte.comma :: (memberBytes a ++ furtherBytes as)

theorem bytes_attributePieces (a : String × Double) :
    bytes (attributePieces a) = memberBytes a := by
  have hcolon : encode ":".toList = [Byte.colon] := by decide
  rw [attributePieces, bytes_append, bytes_stringPieces, bytes_cons, bytes_cons, bytes_nil, hcolon,
    List.append_nil]
  rfl

theorem bytes_memberPieces (a : String × Double) (as : List (String × Double)) :
    bytes (memberPieces (a :: as)) = memberBytes a ++ furtherBytes as := by
  have hcomma : encode ",".toList = [Byte.comma] := by decide
  induction as generalizing a with
  | nil => rw [memberPieces, bytes_attributePieces, furtherBytes, List.append_nil]
  | cons b as ih =>
    rw [memberPieces, bytes_append, bytes_attributePieces, bytes_cons, ih, hcomma]
    · rfl
    · exact List.cons_ne_nil b as

/-- A line without its end. -/
def objectBytes (frame : Nat) (attributes : Attributes) : Bytes :=
  Byte.openBrace :: (quoted "frame" ++ Byte.colon :: (encode (Nat.toDigits 10 frame) ++
    Byte.comma :: (quoted "attributes" ++ Byte.colon :: Byte.openBrace ::
      (bytes (memberPieces attributes) ++ [Byte.closeBrace, Byte.closeBrace]))))

theorem bytes_objectPieces (frame : Nat) (attributes : Attributes) :
    bytes (objectPieces frame attributes) = objectBytes frame attributes := by
  have hopen : encode "\x7b".toList = [Byte.openBrace] := by decide
  have hclose : encode "\x7d".toList = [Byte.closeBrace] := by decide
  have hcolon : encode ":".toList = [Byte.colon] := by decide
  have hcomma : encode ",".toList = [Byte.comma] := by decide
  have hnumber : (toString frame).toList = Nat.toDigits 10 frame := by
    rw [Nat.toString_eq_ofList_toDigits, String.toList_ofList]
  simp only [objectPieces, bytes_append, bytes_stringPieces, bytes_cons, bytes_nil, hopen, hclose,
    hcolon, hcomma, hnumber, List.append_assoc, List.cons_append, List.nil_append]
  rfl

end Line

namespace LineReader

open Line (quoted memberBytes furtherBytes objectBytes)

theorem text_quoted (name : String) (rest : Bytes) :
    text (quoted name ++ rest) = .ok (encode name.toList, rest) := by
  have hstring := string_spelling (spelling_escaped name.toList) rest
  simpa [text, quoted, expect, bind, Except.bind] using hstring

theorem natural_digits {n : ℕ} (hn : n < 2 ^ 64) {rest : Bytes} (hrest : EndsNumber rest) :
    natural (encode (Nat.toDigits 10 n) ++ rest) = .ok (n, rest) := by
  have hread := unsigned_digits hn hrest
  obtain ⟨b, t, hbytes, hb⟩ := (whole_encode (row_toDigits n)).exists_digit
  rw [hbytes, List.cons_append] at hread ⊢
  simp [natural, Json.number, (ne_sign_of_digit hb).2, hread]

theorem value_numberText (x : Double) {rest : Bytes} (hrest : EndsNumber rest) :
    value (encode (Line.numberText x).toList ++ rest) = .ok (x.isFinite, rest) := by
  cases hx : x.isFinite with
  | true =>
    obtain ⟨b, t, hbytes, hb, hskip⟩ := (numberText_finite hx).skips
    rw [hbytes, List.cons_append]
    simp [value, hb, hskip rest hrest, Except.map]
  | false =>
    rw [numberText_not_finite hx]
    rfl

def told (a : String × Double) : Bytes × Bool := (a.1.toUTF8.toList, a.2.isFinite)

theorem member_memberBytes (a : String × Double) {rest : Bytes} (hrest : EndsNumber rest) :
    member (memberBytes a ++ rest) = .ok (told a, rest) := by
  rw [memberBytes, List.append_assoc, List.cons_append, member, text_quoted, told, toUTF8_toList]
  simp [expect, bind, Except.bind, value_numberText a.2 hrest, pure, Except.pure]

theorem endsNumber_further (as : List (String × Double)) (rest : Bytes) :
    EndsNumber (furtherBytes as ++ Byte.closeBrace :: rest) := by
  apply endsNumber_of_head
  cases as <;> simp [furtherBytes]

theorem members_memberBytes (a : String × Double) (as : List (String × Double)) (rest : Bytes)
    (fuel : ℕ) (hfuel : as.length < fuel) :
    members fuel (memberBytes a ++ (furtherBytes as ++ Byte.closeBrace :: rest)) =
      .ok ((a :: as).map told, Byte.closeBrace :: rest) := by
  have hclose : Byte.closeBrace ≠ Byte.comma := by decide
  induction as generalizing a fuel with
  | nil =>
    obtain ⟨fuel, rfl⟩ : ∃ n, fuel = n + 1 := ⟨fuel - 1, by omega⟩
    rw [members, member_memberBytes a (endsNumber_further [] rest)]
    simp [furtherBytes, hclose, bind, Except.bind, pure, Except.pure]
  | cons b as ih =>
    obtain ⟨fuel, rfl⟩ : ∃ n, fuel = n + 1 := ⟨fuel - 1, by omega⟩
    have hstep := ih b fuel (by simpa using hfuel)
    rw [members, member_memberBytes a (endsNumber_further (b :: as) rest)]
    simp [furtherBytes, hstep, bind, Except.bind, pure, Except.pure]

theorem length_furtherBytes (as : List (String × Double)) : as.length ≤ (furtherBytes as).length := by
  induction as with
  | nil => exact le_rfl
  | cons a as ih =>
    rw [furtherBytes, List.length_cons, List.length_cons, List.length_append]
    omega

theorem content_memberPieces (attributes : Attributes) (rest : Bytes) :
    content (Line.bytes (Line.memberPieces attributes) ++ Byte.closeBrace :: rest) =
      .ok (attributes.map told, Byte.closeBrace :: rest) := by
  cases attributes with
  | nil => simp [content, Line.memberPieces, Line.bytes_nil]
  | cons a as =>
    have hlength := length_furtherBytes as
    have hhead : (memberBytes a ++ (furtherBytes as ++ Byte.closeBrace :: rest)).head? =
      some Byte.quote := rfl
    rw [Line.bytes_memberPieces, List.append_assoc, content, hhead, if_neg (by decide)]
    exact members_memberBytes a as rest _ (by simp; omega)

theorem key_quoted (name : String) (rest : Bytes) :
    key name (quoted name ++ Byte.colon :: rest) = .ok rest := by
  rw [key, text_quoted, toUTF8_toList]
  simp [expect, bind, Except.bind]

/-- A line is read as what it tells of a frame. -/
theorem record_objectBytes {frame : ℕ} (hframe : frame < 2 ^ 64) (attributes : Attributes) :
    record (objectBytes frame attributes) = .ok (frame, attributes.map told) := by
  have hcomma (s : Bytes) : EndsNumber (Byte.comma :: s) := endsNumber_of_head (by simp)
  have hcontent := content_memberPieces attributes [Byte.closeBrace]
  simp [objectBytes, record, expect, key_quoted, natural_digits hframe (hcomma _), hcontent, bind,
    Except.bind]

end LineReader

end FrameLoop

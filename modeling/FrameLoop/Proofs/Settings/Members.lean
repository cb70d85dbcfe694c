import FrameLoop.Proofs.Json.Spelling
import FrameLoop.Proofs.Settings.Rereading

/-! Reading back a settings file as it is written: one member on each line, each with its own field. -/

namespace FrameLoop.Settings

open Json

/-- The text of one assignment is read as another one for the same field. -/
structure ReadsAs (a b : Assignment) : Prop where
  field : b.field = a.field
  read : ∀ rest, EndsNumber rest → a.field.read (encode a.text.toList ++ rest) = .ok (b, rest)

theorem Field.read_blank (f : Field) (s : Bytes) : f.read (32 :: s) = f.read s := by
  cases f <;> rfl

theorem readBoolean_text (b : Bool) (rest : Bytes) :
    readBoolean (encode (toString b).toList ++ rest) = .ok (b, rest) := by
  cases b <;> rfl

theorem readInteger_text {n : ℤ} (hn : 0 ≤ n) (hlt : n < 2 ^ 31) {rest : Bytes}
    (hrest : EndsNumber rest) :
    readInteger (encode (toString n).toList ++ rest) = .ok (n, rest) := by
  obtain ⟨m, rfl⟩ := Int.eq_ofNat_of_zero_le hn
  have hm : m < 2 ^ 31 := by exact_mod_cast hlt
  have htext : (toString (m : ℤ)).toList = Nat.toDigits 10 m := by
    change (toString m).toList = _
    rw [Nat.toString_eq_ofList_toDigits, String.toList_ofList]
  rw [htext]
  apply readNumber_unsigned (unsigned_digits (by omega) hrest)
  rw [acceptInteger, Nat.pow_eq, if_pos hm]

/-- Text without quotes, escapes and controls. -/
def Plain (s : Bytes) : Prop :=
  ∀ b ∈ s, b ≠ Byte.quote ∧ b ≠ Byte.backslash ∧ Byte.isControl b = false

theorem string_plain {s : Bytes} (hs : Plain s) (rest : Bytes) :
    Json.string (s ++ Byte.quote :: rest) = .ok (s, rest) :=
  string_spelling (.of_plain hs) rest

theorem key_plain (f : Field) : Plain (encode f.key.toList) := by
  have hall : (encode f.key.toList).all (fun b => b ≠ Byte.quote ∧ b ≠ Byte.backslash ∧
      Byte.isControl b = false) = true := by
    cases f <;> decide +kernel
  intro b hb
  simpa using List.all_eq_true.mp hall b hb

theorem ofKey?_key (f : Field) : Field.ofKey? (encode f.key.toList) = some f := by
  unfold Field.ofKey?
  simp only [toUTF8_toList]
  cases f <;> decide +kernel

variable {a b : Assignment} {rest : Bytes}

/-- A line, after its opening quote. -/
def Assignment.member (a : Assignment) : Bytes :=
  encode a.field.key.toList ++ Byte.quote :: Byte.colon :: 32 :: encode a.text.toList

theorem encode_line (a : Assignment) : encode a.line.toList = 32 :: 32 :: Byte.quote :: a.member := by
  have hline : a.line.toList = [' ', ' ', '"'] ++ (a.field.key.toList ++
      (['"', ':', ' '] ++ a.text.toList)) := by
    change ("  \"" ++ a.field.key ++ "\": " ++ a.text).toList = _
    simp only [String.toList_append, List.append_assoc]
    rfl
  rw [hline, encode_append, encode_append, encode_append, Assignment.member]
  rfl

theorem readMember_member (h : ReadsAs a b) (hrest : EndsNumber rest) {seen : List Field}
    (hseen : a.field ∉ seen) : readMember seen (a.member ++ rest) = .ok (some b, rest) := by
  have hkey := string_plain (key_plain a.field)
    (Byte.colon :: 32 :: (encode a.text.toList ++ rest))
  have hread := h.read rest hrest
  rw [← Field.read_blank] at hread
  have hcolon : Walk.colon (Byte.colon :: 32 :: (encode a.text.toList ++ rest)) =
      .ok (32 :: (encode a.text.toList ++ rest)) := rfl
  have hmember : a.member ++ rest = encode a.field.key.toList ++
      Byte.quote :: Byte.colon :: 32 :: (encode a.text.toList ++ rest) := by
    rw [Assignment.member, List.append_assoc]
    rfl
  rw [hmember, readMember, hkey]
  simp only [bind, Except.bind, ofKey?_key, if_neg hseen, hcolon, hread]

/-- The lines after the first one, and the closing brace. -/
def furtherLines : List Assignment → Bytes
  | [] => [newline, Byte.closeBrace]
  | a :: as => Byte.comma :: newline :: encode a.line.toList ++ furtherLines as

theorem furtherLines_ends (as : List Assignment) : EndsNumber (furtherLines as) := by
  cases as with
  | nil => exact ⟨rfl, rfl, by decide⟩
  | cons a as => exact ⟨rfl, rfl, by simp [furtherLines, Byte.comma, Byte.point]⟩

theorem length_le_furtherLines (as : List Assignment) : as.length ≤ (furtherLines as).length := by
  induction as with
  | nil => exact Nat.zero_le _
  | cons a as ih =>
    simp only [furtherLines, List.length_append, List.length_cons]
    omega

theorem encode_lines (a : Assignment) (as : List Assignment) :
    encode (",\n".toList.intercalate ((a :: as).map fun a => a.line.toList)) ++
      [newline, Byte.closeBrace] = encode a.line.toList ++ furtherLines as := by
  induction as generalizing a with
  | nil => simp [List.intercalate, furtherLines]
  | cons b as ih =>
    have hsplit : ",\n".toList.intercalate ((a :: b :: as).map fun a => a.line.toList) =
        a.line.toList ++ ([',', '\n'] ++
          ",\n".toList.intercalate ((b :: as).map fun a => a.line.toList)) := by
      simp [List.intercalate]
    have hcomma : encode [',', '\n'] = [Byte.comma, newline] := rfl
    rw [hsplit, encode_append, encode_append, List.append_assoc, List.append_assoc, ih, hcomma]
    rfl

/-- One member, and then the others. Before all but the first there is a comma. -/
theorem readMembers_member (h : ReadsAs a b) (hrest : EndsNumber rest) (fuel : ℕ) (first : Bool)
    (read : List Assignment) (hseen : a.field ∉ read.map Assignment.field) :
    readMembers (fuel + 1) first read ((if first then [] else [Byte.comma]) ++
      newline :: encode a.line.toList ++ rest) = readMembers fuel false (b :: read) rest := by
  have hmember := readMember_member h hrest hseen
  have hstep : readMembers (fuel + 1) first read ((if first then [] else [Byte.comma]) ++
      newline :: encode a.line.toList ++ rest) =
      readMember (read.map Assignment.field) (a.member ++ rest) >>= fun r =>
        readMembers fuel false (r.1.toList ++ read) r.2 := by
    rw [encode_line]
    cases first <;> rfl
  rw [hstep, hmember]
  rfl

/-- The members that are left, each for a field of its own. -/
theorem readMembers_further {as bs : List Assignment} (h : List.Forall₂ ReadsAs as bs) (fuel : ℕ)
    (read : List Assignment) (hfuel : as.length < fuel)
    (hseen : (as.map Assignment.field).Nodup)
    (hnew : ∀ a ∈ as, a.field ∉ read.map Assignment.field) :
    readMembers fuel false read (furtherLines as) = .ok (bs.reverse ++ read, []) := by
  induction h generalizing fuel read with
  | nil =>
    obtain ⟨fuel, rfl⟩ : ∃ n, fuel = n + 1 := ⟨fuel - 1, by omega⟩
    rfl
  | @cons a b as bs hab _ ih =>
    obtain ⟨fuel, rfl⟩ : ∃ n, fuel = n + 1 := ⟨fuel - 1, by omega⟩
    rw [List.map_cons, List.nodup_cons] at hseen
    have hstep := readMembers_member hab (furtherLines_ends as) fuel false read
      (hnew a List.mem_cons_self)
    have hlater := ih fuel (b :: read) (by simpa using hfuel) hseen.2 fun c hc => by
      rw [List.map_cons, List.mem_cons, not_or, hab.field]
      refine ⟨fun heq => ?_, hnew c (List.mem_cons_of_mem a hc)⟩
      exact hseen.1 (heq ▸ List.mem_map_of_mem hc)
    rw [furtherLines]
    simp only [List.reverse_cons, List.append_assoc, List.singleton_append]
    exact hstep.trans hlater

end FrameLoop.Settings

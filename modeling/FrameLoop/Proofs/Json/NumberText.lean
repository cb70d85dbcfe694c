import FrameLoop.Json.Number
import FrameLoop.Proofs.Decimal.Shortest

/-! Reading back what the layout of a data file makes of a decimal. A row of digits is gathered to its
value, and each layout splits its digits into rows that come together again. -/

namespace FrameLoop.Json

/-- The bytes of a text. -/
def encode (cs : List Char) : Bytes := cs.flatMap String.utf8EncodeChar

@[simp]
theorem encode_nil : encode [] = [] := rfl

@[simp]
theorem encode_append (cs ds : List Char) : encode (cs ++ ds) = encode cs ++ encode ds :=
  List.flatMap_append

theorem encode_cons (c : Char) (cs : List Char) :
    encode (c :: cs) = String.utf8EncodeChar c ++ encode cs := List.flatMap_cons

theorem toList_loop (bs : ByteArray) (i : ℕ) (read : List UInt8) :
    ByteArray.toList.loop bs i read = read.reverse ++ bs.data.toList.drop i := by
  induction hleft : bs.size - i generalizing i read with
  | zero =>
    have hsize : bs.data.toList.length ≤ i := by
      have hle : bs.size ≤ i := by omega
      rwa [ByteArray.size, ← Array.length_toList] at hle
    rw [ByteArray.toList.loop.eq_1, if_neg (by omega), List.drop_eq_nil_of_le hsize, List.append_nil]
  | succ left ih =>
    have hlt : i < bs.data.toList.length := by
      have hlt : i < bs.size := by omega
      rwa [ByteArray.size, ← Array.length_toList] at hlt
    have hget : bs.get! i = bs.data.toList[i] := by
      change bs.data[i]! = _
      rw [getElem!_pos bs.data i (by simpa using hlt)]
      simp
    rw [ByteArray.toList.loop.eq_1, if_pos (by omega), ih _ _ (by omega), List.drop_eq_getElem_cons hlt,
      hget]
    simp

theorem toUTF8_toList (s : String) : s.toUTF8.toList = encode s.toList := by
  rw [ByteArray.toList.eq_1, toList_loop, List.reverse_nil, List.nil_append, List.drop_zero,
    String.toUTF8_eq_toByteArray, ← String.utf8Encode_toList, List.utf8Encode,
    List.toList_data_toByteArray]
  rfl

theorem encode_digit {c : Char} (hc : c.isDigit = true) : ∃ b, String.utf8EncodeChar c = [b] ∧
    Byte.isDigit b = true ∧ Byte.digit b = c.toNat - '0'.toNat := by
  have hrange : 48 ≤ c.toNat ∧ c.toNat ≤ 57 := by
    simpa [Char.isDigit, UInt32.le_iff_toNat_le] using hc
  have hb : (UInt8.ofNat c.toNat).toNat = c.toNat := by
    rw [UInt8.toNat_ofNat']
    omega
  refine ⟨UInt8.ofNat c.toNat, ?_, ?_, ?_⟩
  · rw [String.utf8EncodeChar.eq_1, if_pos]
    · rfl
    · change c.toNat ≤ 127
      omega
  · simp only [Byte.isDigit, Bool.and_eq_true, decide_eq_true_eq, UInt8.le_iff_toNat_le, hb]
    exact hrange
  · rw [Byte.digit, hb]
    rfl

/-- A row of digits. -/
def Digits (ds : List Char) : Prop := ∀ c ∈ ds, c.isDigit = true

theorem digits_toDigits (n : ℕ) : Digits (Nat.toDigits 10 n) := fun _ hc =>
  Nat.isDigit_of_mem_toDigits (by norm_num) (by norm_num) hc

theorem digits_zeros (n : ℕ) : Digits (List.replicate n '0') := by
  intro c hc
  rw [List.eq_of_mem_replicate hc]
  rfl

theorem Digits.append {cs ds : List Char} (hc : Digits cs) (hd : Digits ds) : Digits (cs ++ ds) := by
  intro c hmem
  rcases List.mem_append.mp hmem with h | h
  · exact hc c h
  · exact hd c h

/-- Later digits do not make a number less. -/
theorem le_ofDigitChars (ds : List Char) (n : ℕ) : n ≤ Nat.ofDigitChars 10 ds n := by
  rw [Nat.ofDigitChars_eq_ofDigitChars_zero]
  have hpow : 1 * n ≤ 10 ^ ds.length * n := Nat.mul_le_mul_right n (Nat.one_le_pow _ _ (by norm_num))
  omega

section

variable {ds : List Char} {rest : Bytes} (hds : Digits ds) (hrest : startsWithDigit rest = false)

theorem skipDigits_none {s : Bytes} (hs : startsWithDigit s = false) : skipDigits s = s := by
  cases s with
  | nil => rfl
  | cons b s =>
    have hb : Byte.isDigit b = false := hs
    simp [skipDigits, hb]

include hds hrest

theorem gather_digits (n count : ℕ) (hlt : Nat.ofDigitChars 10 ds n < 2 ^ 64) :
    gather n count (encode ds ++ rest) =
      (Nat.ofDigitChars 10 ds n, count + ds.length, rest) := by
  induction ds generalizing n count with
  | nil =>
    cases rest with
    | nil => rfl
    | cons b s =>
      have hb : Byte.isDigit b = false := hrest
      simp [gather, hb]
  | cons c cs ih =>
    obtain ⟨b, hbytes, hdigit, hvalue⟩ := encode_digit (hds c List.mem_cons_self)
    rw [Nat.ofDigitChars_cons, ← hvalue, Nat.mul_comm] at hlt
    have hgrown : n * 10 + Byte.digit b < 2 ^ 64 := lt_of_le_of_lt (le_ofDigitChars _ _) hlt
    rw [encode_cons, hbytes, List.singleton_append, List.cons_append, gather, hdigit]
    simp only [Bool.true_and, Nat.pow_eq, decide_eq_true hgrown, if_true]
    rw [ih (fun d hd => hds d (List.mem_cons_of_mem c hd)) _ _ hlt, Nat.ofDigitChars_cons, ← hvalue,
      Nat.mul_comm 10 n, List.length_cons, Nat.add_right_comm, Nat.add_assoc]

theorem exponentDigits_digits (n : ℕ) (hlt : Nat.ofDigitChars 10 ds n < 2 ^ 31) :
    exponentDigits n (encode ds ++ rest) = (some (Nat.ofDigitChars 10 ds n), rest) := by
  induction ds generalizing n with
  | nil =>
    cases rest with
    | nil => rfl
    | cons b s =>
      have hb : Byte.isDigit b = false := hrest
      simp [exponentDigits, hb]
  | cons c cs ih =>
    obtain ⟨b, hbytes, hdigit, hvalue⟩ := encode_digit (hds c List.mem_cons_self)
    rw [Nat.ofDigitChars_cons, ← hvalue, Nat.mul_comm] at hlt
    have hgrown : n * 10 + Byte.digit b < 2 ^ 31 := lt_of_le_of_lt (le_ofDigitChars _ _) hlt
    rw [encode_cons, hbytes, List.singleton_append, List.cons_append, exponentDigits, if_pos hdigit]
    simp only [Nat.pow_eq, if_pos hgrown]
    rw [ih (fun d hd => hds d (List.mem_cons_of_mem c hd)) _ hlt, Nat.ofDigitChars_cons, ← hvalue,
      Nat.mul_comm 10 n]

/-- Decimals, and what follows them. -/
theorem decimalPart_digits (positive : Bool) (n : ℕ) (start : ℤ) (hne : ds ≠ [])
    (hlt : Nat.ofDigitChars 10 ds n < 2 ^ 64) :
    decimalPart positive n start (encode ds ++ rest) =
      if startsWithExponent rest then
        exponentPart positive (Nat.ofDigitChars 10 ds n) (start - ds.length) rest.tail
      else assemble positive (Nat.ofDigitChars 10 ds n) (start - ds.length) rest := by
  have hcount : ds.length ≠ 0 := fun h => hne (List.length_eq_zero_iff.mp h)
  unfold decimalPart
  rw [gather_digits hds hrest n 0 hlt]
  simp [hcount, skipDigits_none hrest]

end

/-- A row of digits that does not start with a zero, or is one. -/
structure Row (ds : List Char) : Prop where
  digits : Digits ds
  ne_nil : ds ≠ []
  head : ds.head? = some '0' → ds = ['0']

theorem row_toDigits (n : ℕ) : Row (Nat.toDigits 10 n) := by
  refine ⟨digits_toDigits n, Nat.toDigits_ne_nil, ?_⟩
  induction n using Nat.strong_induction_on with
  | _ n ih =>
    rcases Nat.lt_or_ge n 10 with hsmall | hlarge
    · rw [Nat.toDigits_of_lt_base hsmall]
      intro hhead
      simpa using hhead
    · rw [Nat.toDigits_of_base_le (by norm_num) hlarge]
      intro hhead
      rw [List.head?_append_of_ne_nil _ Nat.toDigits_ne_nil] at hhead
      have hzero := ih (n / 10) (by omega) hhead
      have hvalue := Nat.ofDigitChars_ten_toDigits (n := n / 10)
      rw [hzero] at hvalue
      have hdiv : n / 10 = 0 := hvalue.symm
      omega

theorem Row.take {ds : List Char} (h : Row ds) {w : ℕ} (hw : 0 < w) : Row (ds.take w) := by
  obtain ⟨c, cs, rfl⟩ := List.exists_cons_of_ne_nil h.ne_nil
  obtain ⟨v, rfl⟩ : ∃ v, w = v + 1 := ⟨w - 1, by omega⟩
  refine ⟨fun d hd => h.digits d (List.mem_of_mem_take hd), by simp, fun hhead => ?_⟩
  rw [List.take_succ_cons] at hhead ⊢
  have hone := h.head hhead
  rw [(List.cons_eq_cons.mp hone).2] at hhead ⊢
  simpa using hhead

theorem Row.append {ds zs : List Char} (h : Row ds) (hd : ds ≠ ['0']) (hz : Digits zs) :
    Row (ds ++ zs) := by
  refine ⟨h.digits.append hz, by simp [h.ne_nil], fun hhead => ?_⟩
  rw [List.head?_append_of_ne_nil _ h.ne_nil] at hhead
  exact absurd (h.head hhead) hd

theorem unsigned_row {ds : List Char} (h : Row ds) (positive : Bool) {rest : Bytes}
    (hrest : startsWithDigit rest = false) (hlt : Nat.ofDigitChars 10 ds 0 < 2 ^ 64) :
    unsigned positive (encode ds ++ rest) = finish positive (Nat.ofDigitChars 10 ds 0) rest := by
  obtain ⟨c, cs, rfl⟩ := List.exists_cons_of_ne_nil h.ne_nil
  obtain ⟨b, hbytes, hdigit, hvalue⟩ := encode_digit (h.digits c List.mem_cons_self)
  rw [encode_cons, hbytes, List.singleton_append, List.cons_append]
  by_cases hzero : Byte.digit b = 0
  · have hc : c = '0' := by
      have hrange : 48 ≤ c.toNat ∧ c.toNat ≤ 57 := by
        simpa [Char.isDigit, UInt32.le_iff_toNat_le] using h.digits c List.mem_cons_self
      rw [hzero] at hvalue
      have h48 : c.toNat = 48 := by
        change 0 = c.toNat - 48 at hvalue
        omega
      exact Char.toNat_inj.mp h48
    obtain rfl : cs = [] := by
      have hone := h.head (by rw [hc]; rfl)
      exact (List.cons_eq_cons.mp hone).2
    rw [encode_nil, List.nil_append, unsigned]
    simp only [hdigit, hzero, hrest, hc]
    rfl
  · have hcs : Digits cs := fun d hd => h.digits d (List.mem_cons_of_mem c hd)
    rw [Nat.ofDigitChars_cons, ← hvalue, Nat.mul_zero, Nat.zero_add] at hlt ⊢
    rw [unsigned]
    simp only [hdigit, if_neg hzero, gather_digits hcs hrest _ 1 hlt, hrest]
    rfl

/-- What may follow a number. -/
structure EndsNumber (rest : Bytes) : Prop where
  digit : startsWithDigit rest = false
  exponent : startsWithExponent rest = false
  point : rest.head? ≠ some Byte.point

theorem unsigned_digits {n : ℕ} (hn : n < 2 ^ 64) {rest : Bytes} (hrest : EndsNumber rest) :
    unsigned true (encode (Nat.toDigits 10 n) ++ rest) = .ok (.natural n, rest) := by
  have hvalue := Nat.ofDigitChars_ten_toDigits (n := n)
  rw [unsigned_row (row_toDigits n) true hrest.digit (by rwa [hvalue]), hvalue, finish, if_neg]
  · rfl
  · rintro (hpoint | hmark)
    · exact hrest.point hpoint
    · rw [hrest.exponent] at hmark
      cases hmark

/-- The float with the given parts, as a number. -/
def assembled (positive : Bool) (n : ℕ) (e : ℤ) (rest : Bytes) : Except Fault (Number × Bytes) :=
  (assemble positive n e rest).map fun (x, s) => (.real x, s)

/-- The mark of an exponent. -/
def Byte.mark : UInt8 := 101

theorem finish_point (positive : Bool) (n : ℕ) (s : Bytes) :
    finish positive n (Byte.point :: s) =
      (decimalPart positive n 0 s).map fun (x, s) => (.real x, s) := by
  rw [finish, fractionPart, List.head?_cons, if_pos (Or.inl rfl), if_pos rfl, List.tail_cons]

theorem finish_mark (positive : Bool) (n : ℕ) (s : Bytes) :
    finish positive n (Byte.mark :: s) =
      (exponentPart positive n 0 s).map fun (x, s) => (.real x, s) := by
  have hmark : startsWithExponent (Byte.mark :: s) = true := rfl
  rw [finish, fractionPart, List.head?_cons, hmark, if_pos (Or.inr rfl), if_neg (by decide), if_pos rfl,
    List.tail_cons]

theorem encode_point (cs : List Char) : encode ('.' :: cs) = Byte.point :: encode cs := rfl

theorem encode_mark (cs : List Char) : encode ('e' :: cs) = Byte.mark :: encode cs := rfl

section

variable {rest : Bytes} (hrest : EndsNumber rest) (positive : Bool) {n : ℕ}

include hrest

theorem exponentPart_digits (start : ℤ) (up : Bool) {m : ℕ} (hm : m < 2 ^ 31) :
    exponentPart positive n start
        (encode ((if up then '+' else '-') :: Nat.toDigits 10 m) ++ rest) =
      assemble positive n (if up then start + m else start - m) rest := by
  obtain ⟨c, cs, hcs⟩ := List.exists_cons_of_ne_nil (Nat.toDigits_ne_nil (b := 10) (n := m))
  have hds : Digits (c :: cs) := hcs ▸ digits_toDigits m
  obtain ⟨b, hbytes, hdigit, hvalue⟩ := encode_digit (hds c List.mem_cons_self)
  have hm' : Nat.ofDigitChars 10 cs (Byte.digit b) = m := by
    have hself := Nat.ofDigitChars_ten_toDigits (n := m)
    rwa [hcs, Nat.ofDigitChars_cons, ← hvalue, Nat.mul_zero, Nat.zero_add] at hself
  have hexponent := exponentDigits_digits (fun d hd => hds d (List.mem_cons_of_mem c hd))
    hrest.digit (Byte.digit b) (by rwa [hm'])
  rw [hm'] at hexponent
  rw [hcs, encode_cons, encode_cons, hbytes]
  cases up
  · have hsign : String.utf8EncodeChar (if false = true then '+' else '-') = [Byte.minus] := rfl
    rw [hsign, List.singleton_append, List.singleton_append, List.cons_append, List.cons_append,
      exponentPart]
    simp [hdigit, hexponent, Byte.plus, Byte.minus]
  · have hsign : String.utf8EncodeChar (if true = true then '+' else '-') = [Byte.plus] := rfl
    rw [hsign, List.singleton_append, List.singleton_append, List.cons_append, List.cons_append,
      exponentPart]
    simp [hdigit, hexponent]

theorem finish_decimals {ds : List Char} (hds : Digits ds) (hne : ds ≠ [])
    (hlt : Nat.ofDigitChars 10 ds n < 2 ^ 64) :
    finish positive n (encode ('.' :: ds) ++ rest) =
      assembled positive (Nat.ofDigitChars 10 ds n) (-ds.length) rest := by
  have hpart := decimalPart_digits hds hrest.digit positive n 0 hne hlt
  rw [hrest.exponent, if_neg (by decide), Int.zero_sub] at hpart
  rw [encode_point, List.cons_append, finish_point, hpart]
  rfl

theorem finish_exponent (up : Bool) {m : ℕ} (hm : m < 2 ^ 31) :
    finish positive n (encode ('e' :: (if up then '+' else '-') :: Nat.toDigits 10 m) ++ rest) =
      assembled positive n (if up then (m : ℤ) else -m) rest := by
  have hpart := exponentPart_digits hrest positive (n := n) 0 up hm
  rw [Int.zero_add, Int.zero_sub] at hpart
  rw [encode_mark, List.cons_append, finish_mark, hpart]
  rfl

theorem finish_both {ds : List Char} (hds : Digits ds) (hne : ds ≠ [])
    (hlt : Nat.ofDigitChars 10 ds n < 2 ^ 64) (up : Bool) {m : ℕ} (hm : m < 2 ^ 31) :
    finish positive n
        (encode ('.' :: ds ++ 'e' :: (if up then '+' else '-') :: Nat.toDigits 10 m) ++ rest) =
      assembled positive (Nat.ofDigitChars 10 ds n)
        (if up then -(ds.length : ℤ) + m else -(ds.length : ℤ) - m) rest := by
  have hpart := exponentPart_digits hrest positive (n := Nat.ofDigitChars 10 ds n) (-ds.length) up hm
  have hdigit : startsWithDigit (Byte.mark ::
      (encode ((if up then '+' else '-') :: Nat.toDigits 10 m) ++ rest)) = false := rfl
  have hmark : startsWithExponent (Byte.mark ::
      (encode ((if up then '+' else '-') :: Nat.toDigits 10 m) ++ rest)) = true := rfl
  have hdecimals := decimalPart_digits hds hdigit positive n 0 hne hlt
  rw [if_pos hmark, List.tail_cons, Int.zero_sub, hpart] at hdecimals
  rw [encode_append, encode_point, encode_mark, List.cons_append, List.cons_append, List.append_assoc,
    List.cons_append, finish_point, hdecimals]
  rfl

end

/-- The digits and the power of ten that stand for a decimal in a text: its own, or those of its
whole and its first decimal, if that has not too many digits. -/
structure Spells (limit n : ℕ) (e : ℤ) (d : Decimal) : Prop where
  size : (n : ℚ) * 10 ^ e = d.size
  shape : (n = d.digits ∧ e = d.exponent) ∨
    (e = -1 ∧ 0 ≤ d.exponent ∧ n = d.digits * 10 ^ (d.exponent.toNat + 1) ∧ n < limit)

/-- The text is read as the decimal, whatever follows it. -/
def ReadsDecimal (limit : ℕ) (d : Decimal) (cs : List Char) : Prop :=
  ∃ n e, Spells limit n e d ∧ ∀ positive rest, EndsNumber rest →
    unsigned positive (encode cs ++ rest) = assembled positive n e rest

variable {d : Decimal} {limit : ℕ}

/-- Whole numbers are written with one decimal, which is read as a digit. -/
theorem whole_reads (hlimit : limit ≤ 2 ^ 64) (hk : 0 ≤ d.exponent)
    (hzero : d.digits = 0 → d.exponent = 0) (hfew : d.digits * 10 ^ (d.exponent.toNat + 1) < limit) :
    ReadsDecimal limit d
      (Nat.toDigits 10 d.digits ++ List.replicate d.exponent.toNat '0' ++ ['.', '0']) := by
  have hrow : Row (Nat.toDigits 10 d.digits ++ List.replicate d.exponent.toNat '0') := by
    by_cases hd : d.digits = 0
    · rw [hzero hd]
      simpa using row_toDigits d.digits
    · apply (row_toDigits d.digits).append _ (digits_zeros _)
      intro hone
      have hvalue := Nat.ofDigitChars_ten_toDigits (n := d.digits)
      rw [hone] at hvalue
      exact hd hvalue.symm
  have hvalue : Nat.ofDigitChars 10 (Nat.toDigits 10 d.digits ++
      List.replicate d.exponent.toNat '0') 0 = d.digits * 10 ^ d.exponent.toNat := by
    rw [Nat.ofDigitChars_append, Nat.ofDigitChars_ten_toDigits, Nat.ofDigitChars_replicate_zero,
      Nat.mul_comm]
  have hdecimal : Nat.ofDigitChars 10 ['0'] (d.digits * 10 ^ d.exponent.toNat) =
      d.digits * 10 ^ (d.exponent.toNat + 1) := by
    change 10 * (d.digits * 10 ^ d.exponent.toNat) + 0 = _
    rw [pow_succ]
    ring
  have hone : Digits ['0'] := digits_zeros 1
  have hless : d.digits * 10 ^ d.exponent.toNat < 2 ^ 64 :=
    lt_of_le_of_lt (Nat.mul_le_mul_left _ (Nat.pow_le_pow_right (by norm_num) (Nat.le_succ _)))
      (hfew.trans_le hlimit)
  refine ⟨d.digits * 10 ^ (d.exponent.toNat + 1), -1, ⟨?_, Or.inr ⟨rfl, hk, rfl, hfew⟩⟩,
    fun positive rest hrest => ?_⟩
  · rw [Decimal.size, ← ten_zpow_toNat hk, pow_succ]
    push_cast
    norm_num
    ring
  · rw [encode_append, List.append_assoc, unsigned_row hrow positive rfl (by rwa [hvalue]), hvalue,
      finish_decimals hrest positive hone (by decide) (by
        rw [hdecimal]
        exact hfew.trans_le hlimit), hdecimal]
    rfl

section

variable (hlt : d.digits < 2 ^ 64)

include hlt

/-- Digits with a point among them. -/
theorem pointed_reads {w : ℕ} (hw : 0 < w) (hw' : w < (Nat.toDigits 10 d.digits).length)
    (hk : d.exponent = w - (Nat.toDigits 10 d.digits).length) :
    ReadsDecimal limit d (Layout.pointed (Nat.toDigits 10 d.digits) w) := by
  have hvalue := Nat.ofDigitChars_ten_toDigits (n := d.digits)
  rw [← List.take_append_drop w (Nat.toDigits 10 d.digits), Nat.ofDigitChars_append] at hvalue
  have hdrop : Digits ((Nat.toDigits 10 d.digits).drop w) := fun c hc =>
    digits_toDigits d.digits c (List.mem_of_mem_drop hc)
  have hne : (Nat.toDigits 10 d.digits).drop w ≠ [] := by
    rw [Ne, List.drop_eq_nil_iff]
    omega
  have hless := lt_of_le_of_lt (le_ofDigitChars _ _) (hvalue.trans_lt hlt)
  refine ⟨d.digits, d.exponent, ⟨rfl, Or.inl ⟨rfl, rfl⟩⟩, fun positive rest hrest => ?_⟩
  rw [Layout.pointed, encode_append, List.append_assoc,
    unsigned_row ((row_toDigits d.digits).take hw) positive rfl hless,
    finish_decimals hrest positive hdrop hne (hvalue.trans_lt hlt), hvalue, List.length_drop]
  congr 1
  omega

/-- Digits after a point and zeros. -/
theorem small_reads {zeros : ℕ} (hk : d.exponent = -(zeros + (Nat.toDigits 10 d.digits).length)) :
    ReadsDecimal limit d
      ('0' :: '.' :: List.replicate zeros '0' ++ Nat.toDigits 10 d.digits) := by
  have hvalue : Nat.ofDigitChars 10 (List.replicate zeros '0' ++ Nat.toDigits 10 d.digits) 0 =
      d.digits := by
    rw [Nat.ofDigitChars_append, Nat.ofDigitChars_replicate_zero, Nat.mul_zero,
      Nat.ofDigitChars_ten_toDigits]
  have hds := (digits_zeros zeros).append (digits_toDigits d.digits)
  have hne : List.replicate zeros '0' ++ Nat.toDigits 10 d.digits ≠ [] := by
    simp [Nat.toDigits_ne_nil]
  have hrow : Row ['0'] := row_toDigits 0
  have hsplit : '0' :: '.' :: List.replicate zeros '0' ++ Nat.toDigits 10 d.digits =
      ['0'] ++ '.' :: (List.replicate zeros '0' ++ Nat.toDigits 10 d.digits) := rfl
  have hnone : Nat.ofDigitChars 10 ['0'] 0 = 0 := rfl
  refine ⟨d.digits, d.exponent, ⟨rfl, Or.inl ⟨rfl, rfl⟩⟩, fun positive rest hrest => ?_⟩
  rw [hsplit, encode_append, List.append_assoc, unsigned_row hrow positive rfl (by decide), hnone,
    finish_decimals hrest positive hds hne (by rwa [hvalue]), hvalue, List.length_append,
    List.length_replicate, Nat.cast_add, hk]

theorem positional_reads (hlimit : limit ≤ 2 ^ 64) (hzero : d.digits = 0 → d.exponent = 0)
    (hfew : 0 ≤ d.exponent → d.digits * 10 ^ (d.exponent.toNat + 1) < limit) :
    ReadsDecimal limit d (Layout.positionalText true d) := by
  unfold Layout.positionalText
  simp only [↓reduceIte]
  split_ifs with hk hmiddle
  · exact whole_reads hlimit hk hzero (hfew hk)
  · exact pointed_reads hlt (by omega) (by omega) (by omega)
  · exact small_reads hlt (by omega)

theorem scientific_reads (hexp : d.exponent.natAbs < 10 ^ 6) :
    ReadsDecimal limit d (Layout.scientificText d) := by
  have hlen : (Nat.toDigits 10 d.digits).length ≤ 20 :=
    (Nat.length_toDigits_le_iff (by norm_num) (by norm_num)).mpr (hlt.trans (by norm_num))
  have hpos : 0 < (Nat.toDigits 10 d.digits).length := Nat.length_toDigits_pos
  have hvalue := Nat.ofDigitChars_ten_toDigits (n := d.digits)
  refine ⟨d.digits, d.exponent, ⟨rfl, Or.inl ⟨rfl, rfl⟩⟩, fun positive rest hrest => ?_⟩
  unfold Layout.scientificText
  dsimp only
  obtain ⟨lead, hlead⟩ : ∃ lead : ℤ,
      lead = ((Nat.toDigits 10 d.digits).length : ℤ) - 1 + d.exponent := ⟨_, rfl⟩
  rw [← hlead]
  have hsmall : lead.natAbs < 2 ^ 31 := by
    have hbound : lead.natAbs < 10 ^ 6 + 20 := by omega
    exact hbound.trans (by norm_num)
  obtain ⟨up, hup⟩ : ∃ up : Bool, up = decide (0 ≤ lead) := ⟨_, rfl⟩
  have hsign : (if 0 ≤ lead then '+' else '-') = if up then '+' else '-' := by simp [hup]
  have hback : (if up then (lead.natAbs : ℤ) else -lead.natAbs) = lead := by
    rw [hup]
    by_cases h : 0 ≤ lead
    · simp only [h, decide_true, if_true]
      omega
    · simp only [h, decide_false, Bool.false_eq_true, if_false]
      omega
  rw [hsign]
  by_cases hone : (Nat.toDigits 10 d.digits).length ≤ 1
  · rw [if_pos hone, encode_append, List.append_assoc, unsigned_row (row_toDigits d.digits) positive rfl
      (by rwa [hvalue]), hvalue, finish_exponent hrest positive up hsmall, hback]
    congr 1
    omega
  · have hvalue' := hvalue
    rw [← List.take_append_drop 1 (Nat.toDigits 10 d.digits), Nat.ofDigitChars_append] at hvalue'
    have hdrop : Digits ((Nat.toDigits 10 d.digits).drop 1) := fun c hc =>
      digits_toDigits d.digits c (List.mem_of_mem_drop hc)
    have hne : (Nat.toDigits 10 d.digits).drop 1 ≠ [] := by
      rw [Ne, List.drop_eq_nil_iff]
      omega
    have hless := lt_of_le_of_lt (le_ofDigitChars _ _) (hvalue'.trans_lt hlt)
    rw [if_neg hone, Layout.pointed, List.append_assoc, encode_append, List.append_assoc,
      unsigned_row ((row_toDigits d.digits).take one_pos) positive rfl hless,
      finish_both hrest positive hdrop hne (hvalue'.trans_lt hlt) up hsmall, hvalue', List.length_drop]
    congr 1
    cases up <;> simp only [Bool.false_eq_true, if_true, if_false] at hback ⊢ <;> omega

/-- A layout of a data file is read as the decimal that was laid out. -/
theorem render_reads (low high : ℤ) (tie : Tie) (hlimit : limit ≤ 2 ^ 64)
    (hhigh : 10 ^ (high + 2).toNat ≤ limit) (hzero : d.digits = 0 → d.exponent = 0)
    (hexp : d.exponent.natAbs < 10 ^ 6) :
    ReadsDecimal limit d (Layout.render ⟨some (low, high), true, tie⟩ d) := by
  unfold Layout.render
  dsimp only
  split_ifs with hpositional
  · apply positional_reads hlt hlimit hzero
    intro hk
    by_cases hd : d.digits = 0
    · rw [hd, Nat.zero_mul]
      exact lt_of_lt_of_le (by positivity) hhigh
    · have hlead := (hpositional.resolve_left hd).2
      have hpos : 0 < (Nat.toDigits 10 d.digits).length := Nat.length_toDigits_pos
      have hlen := (Nat.length_toDigits_le_iff (b := 10) (n := d.digits) (by norm_num) hpos).mp le_rfl
      calc d.digits * 10 ^ (d.exponent.toNat + 1)
          < 10 ^ (Nat.toDigits 10 d.digits).length * 10 ^ (d.exponent.toNat + 1) :=
            Nat.mul_lt_mul_of_pos_right hlen (by positivity)
        _ = 10 ^ ((Nat.toDigits 10 d.digits).length + (d.exponent.toNat + 1)) := (pow_add _ _ _).symm
        _ ≤ 10 ^ (high + 2).toNat := Nat.pow_le_pow_right (by norm_num) (by omega)
        _ ≤ limit := hhigh
  · exact scientific_reads hlt hexp

end

end FrameLoop.Json

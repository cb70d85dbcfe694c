import FrameLoop.Proofs.Json.Grammar
import FrameLoop.Proofs.Json.Spelling
import FrameLoop.Proofs.Json.Utf8
import FrameLoop.Proofs.Settings.Rereading
import FrameLoop.Telemetry.Line

/-! The strings and numbers of a line are JSON. A string is one way to write its content, and a finite
number is a number of the grammar. -/

namespace FrameLoop

open Json

section Strings

variable {c : Char} {e : List Char}

/-- The characters of a string between its quotes. -/
def Line.escaped (cs : List Char) : List Char := cs.flatMap fun c => (Line.escape? c).getD [c]

theorem Line.join_fragments (plain cs : List Char) :
    (String.join (Line.fragments plain cs)).toList = plain.reverse ++ Line.escaped cs := by
  have hrun (plain : List Char) :
      (String.join (if plain.isEmpty then [] else [String.ofList plain.reverse])).toList =
        plain.reverse := by
    cases plain <;> simp
  induction cs generalizing plain with
  | nil =>
    rw [fragments, hrun]
    simp [escaped]
  | cons c cs ih =>
    rw [fragments, escaped, List.flatMap_cons]
    cases escape? c with
    | none => simp [ih, escaped]
    | some e =>
      dsimp only
      rw [String.join_append, String.toList_append, hrun, String.join_cons, String.toList_append, ih]
      simp [escaped]

theorem hex?_hexDigit {n : ℕ} (hn : n < 16) :
    ∃ b, String.utf8EncodeChar (Line.hexDigit n) = [b] ∧ Byte.hex? b = some n := by
  have hall : ∀ n : Fin 16, (String.utf8EncodeChar (Line.hexDigit n)).map Byte.hex? = [some n.val] := by
    decide
  obtain ⟨b, hb, hhex⟩ := List.map_eq_singleton_iff.mp (hall ⟨n, hn⟩)
  exact ⟨b, hb, hhex⟩

/-- A control character is written by its number. -/
theorem spelling_unit (hc : c.toNat < 32) :
    Spelling (encode ['\\', 'u', '0', '0', Line.hexDigit (c.toNat / 16), Line.hexDigit (c.toNat % 16)])
      (String.utf8EncodeChar c) := by
  obtain ⟨y, hy, hyhex⟩ := hex?_hexDigit (n := c.toNat / 16) (by omega)
  obtain ⟨z, hz, hzhex⟩ := hex?_hexDigit (n := c.toNat % 16) (by omega)
  have hunit : UnitText [48, 48, y, z] c.toNat := by
    have hmk := UnitText.mk (w := 0) (x := 0) (a := 48) (b := 48) rfl rfl hyhex hzhex
    rwa [show ((0 * 16 + 0) * 16 + c.toNat / 16) * 16 + c.toNat % 16 = c.toNat by omega] at hmk
  have hlead : isLeading c.toNat = false := by simp [isLeading]; omega
  have htrail : isTrailing c.toNat = false := by simp [isTrailing]; omega
  have hspelling := Spelling.unit hunit hlead htrail .nil
  rw [utf8, Char.ofNat_toNat] at hspelling
  simp only [List.append_nil] at hspelling
  simp only [encode_cons, encode_nil, hy, hz]
  exact hspelling

theorem spelling_escape (h : Line.escape? c = some e) :
    Spelling (encode e) (String.utf8EncodeChar c) := by
  unfold Line.escape? at h
  have hchar {n : ℕ} (hn : c.toNat = n) : c = Char.ofNat n := by rw [← hn, Char.ofNat_toNat]
  split_ifs at h with hself hlarge hback htab hnewline hfeed hreturn
  · obtain rfl := Option.some.inj h
    rcases hself with rfl | rfl
    · exact .escape (b := 34) rfl .nil
    · exact .escape (b := 92) rfl .nil
  all_goals obtain rfl := Option.some.inj h
  · rw [hchar hback]
    exact .escape (b := 98) rfl .nil
  · rw [hchar htab]
    exact .escape (b := 116) rfl .nil
  · rw [hchar hnewline]
    exact .escape (b := 110) rfl .nil
  · rw [hchar hfeed]
    exact .escape (b := 102) rfl .nil
  · rw [hchar hreturn]
    exact .escape (b := 114) rfl .nil
  · exact spelling_unit (by omega)

theorem spelling_char (h : Line.escape? c = none) :
    Spelling (String.utf8EncodeChar c) (String.utf8EncodeChar c) := by
  unfold Line.escape? at h
  split_ifs at h with hself hlarge
  apply Spelling.of_plain
  intro b hb
  by_cases hsmall : c.toNat < 0x80
  · rw [utf8EncodeChar_small hsmall, List.mem_singleton] at hb
    have hvalue : b.toNat = c.toNat := by rw [hb, byte_toNat (by omega)]
    rw [not_or] at hself
    refine ⟨?_, ?_, ?_⟩
    · rintro rfl
      exact hself.1 (Char.toNat_inj.mp hvalue.symm)
    · rintro rfl
      exact hself.2 (Char.toNat_inj.mp hvalue.symm)
    · simp [Byte.isControl, UInt8.le_iff_toNat_le, hvalue, hlarge]
  · have hb' := le_of_mem_utf8EncodeChar (by omega) b hb
    refine ⟨?_, ?_, ?_⟩
    · rintro rfl
      exact absurd hb' (by decide)
    · rintro rfl
      exact absurd hb' (by decide)
    · simp [Byte.isControl, UInt8.le_iff_toNat_le]
      omega

theorem spelling_escaped (cs : List Char) : Spelling (encode (Line.escaped cs)) (encode cs) := by
  induction cs with
  | nil => exact .nil
  | cons c cs ih =>
    have hcons : Line.escaped (c :: cs) = (Line.escape? c).getD [c] ++ Line.escaped cs := rfl
    rw [hcons, encode_append, encode_cons]
    refine Spelling.append ?_ ih
    cases h : Line.escape? c with
    | none => simpa [encode_cons] using spelling_char h
    | some e => exact spelling_escape h

end Strings

section Numbers

variable {ds : List Char} {d : Decimal}

theorem allDigits_encode (h : Digits ds) : AllDigits (encode ds) := by
  induction ds with
  | nil => exact nofun
  | cons c ds ih =>
    obtain ⟨b, hbytes, hb, -⟩ := encode_digit (h c List.mem_cons_self)
    rw [encode_cons, hbytes]
    rintro b' (_ | ⟨_, hb'⟩)
    · exact hb
    · exact ih (fun c hc => h c (List.mem_cons_of_mem _ hc)) b' hb'

theorem whole_encode (h : Row ds) : WholeText (encode ds) := by
  obtain ⟨c, cs, rfl⟩ := List.exists_cons_of_ne_nil h.ne_nil
  obtain ⟨b, hbytes, hb, hvalue⟩ := encode_digit (h.digits c List.mem_cons_self)
  by_cases hzero : c = '0'
  · obtain rfl : cs = [] := (List.cons_eq_cons.mp (h.head (by rw [hzero]; rfl))).2
    rw [hzero]
    exact .zero
  · rw [encode_cons, hbytes]
    refine .row hb ?_ (allDigits_encode fun c hc => h.digits c (List.mem_cons_of_mem _ hc))
    rintro rfl
    have hrange : 48 ≤ c.toNat ∧ c.toNat ≤ 57 := by
      simpa [Char.isDigit, UInt32.le_iff_toNat_le] using h.digits c List.mem_cons_self
    have hc : c.toNat = 48 := by
      change 48 - 48 = c.toNat - 48 at hvalue
      omega
    exact hzero (Char.toNat_inj.mp hc)

theorem encode_ne_nil (h : ds ≠ []) : encode ds ≠ [] := by
  obtain ⟨c, cs, rfl⟩ := List.exists_cons_of_ne_nil h
  rw [encode_cons]
  simp [String.utf8EncodeChar_ne_nil]

theorem fraction_encode (h : Digits ds) (hne : ds ≠ []) : FractionText (encode ('.' :: ds)) :=
  .some (encode_ne_nil hne) (allDigits_encode h)

theorem exponent_encode (e : ℤ) : ExponentText
    (encode ('e' :: (if 0 ≤ e then '+' else '-') :: Nat.toDigits 10 e.natAbs)) := by
  have hne := encode_ne_nil (Nat.toDigits_ne_nil (b := 10) (n := e.natAbs))
  have hdigits := allDigits_encode (digits_toDigits e.natAbs)
  have hmark : Byte.isExponentMark Byte.mark = true := rfl
  have hplus := ExponentText.some hmark .plus hne hdigits
  have hminus := ExponentText.some hmark .minus hne hdigits
  split_ifs
  · exact hplus
  · exact hminus

theorem whole_fraction {whole : List Char} (h : Row whole) (hds : Digits ds) (hne : ds ≠ []) :
    UnsignedText (encode (whole ++ '.' :: ds)) := by
  have htext := UnsignedText.mk (whole_encode h) (fraction_encode hds hne) .none
  rwa [List.append_nil, ← encode_append] at htext

theorem pointed_encode {w : ℕ} (h : Row ds) (hw : 0 < w) (hw' : w < ds.length) :
    UnsignedText (encode (Layout.pointed ds w)) := by
  refine whole_fraction (h.take hw) (fun c hc => h.digits c (List.mem_of_mem_drop hc)) ?_
  rw [Ne, List.drop_eq_nil_iff]
  omega

theorem positional_encode (hzero : d.digits = 0 → d.exponent = 0) :
    UnsignedText (encode (Layout.positionalText true d)) := by
  have hrow := row_toDigits d.digits
  unfold Layout.positionalText
  simp only [↓reduceIte]
  split_ifs with hk hmiddle
  · refine whole_fraction ?_ (digits_zeros 1) (by decide)
    by_cases hd : d.digits = 0
    · rw [hzero hd]
      simpa using hrow
    · refine hrow.append (fun hone => hd ?_) (digits_zeros _)
      have hvalue := Nat.ofDigitChars_ten_toDigits (n := d.digits)
      rw [hone] at hvalue
      exact hvalue.symm
  · exact pointed_encode hrow (by omega) (by omega)
  · have hsmall := whole_fraction (row_toDigits 0) ((digits_zeros
      (-((Nat.toDigits 10 d.digits).length + d.exponent)).toNat).append (digits_toDigits d.digits))
      (by simp [Nat.toDigits_ne_nil])
    exact hsmall

theorem scientific_encode (d : Decimal) : UnsignedText (encode (Layout.scientificText d)) := by
  have hrow := row_toDigits d.digits
  have hexponent := exponent_encode (((Nat.toDigits 10 d.digits).length : ℤ) - 1 + d.exponent)
  unfold Layout.scientificText
  dsimp only
  by_cases hone : (Nat.toDigits 10 d.digits).length ≤ 1
  · have htext := UnsignedText.mk (whole_encode hrow) .none hexponent
    rw [if_pos hone, encode_append]
    exact htext
  · have hdigits : Digits ((Nat.toDigits 10 d.digits).drop 1) := fun c hc =>
      hrow.digits c (List.mem_of_mem_drop hc)
    have hne : (Nat.toDigits 10 d.digits).drop 1 ≠ [] := by
      rw [Ne, List.drop_eq_nil_iff]
      omega
    rw [if_neg hone, Layout.pointed, List.append_assoc, encode_append, encode_append]
    exact .mk (whole_encode (hrow.take one_pos)) (fraction_encode hdigits hne) hexponent

theorem shortest_zero {F : FloatFormat} (hF : F.fraction ≤ 52) {tie : Tie} {x : Binary F}
    (h : (Decimal.shortest tie x).digits = 0) : (Decimal.shortest tie x).exponent = 0 := by
  by_cases hm : 0 < x.mantissa
  · obtain ⟨c, k, hshort⟩ := Decimal.shortest_shortened hF tie hm
    have hhas : (Decimal.Interval.around x).Has (Decimal.shortest tie x).size :=
      hshort.size ▸ hshort.closest.has
    have hsize := (half_pos (Binary.size_pos_iff.mpr hm)).trans_le (shortest_bounds hm hhas).1
    exact absurd h (Decimal.digits_pos hsize).ne'
  · rw [Decimal.shortest, if_pos (by omega)]

theorem render_encode {low high : ℤ} {tie : Tie} (hzero : d.digits = 0 → d.exponent = 0) :
    UnsignedText (encode (Layout.render ⟨some (low, high), true, tie⟩ d)) := by
  unfold Layout.render
  dsimp only
  split_ifs
  · exact positional_encode hzero
  · exact scientific_encode d

/-- Every finite number is written as a number. -/
theorem numberText_finite {x : Double} (h : x.isFinite = true) :
    NumberText (encode (Line.numberText x).toList) := by
  have htext : (Line.numberText x).toList =
      x.sign.toList ++ (Layout.data .double).render (Decimal.shortest .even x) :=
    Settings.floatText_toList h
  have hrender : UnsignedText (encode ((Layout.data .double).render (Decimal.shortest .even x))) :=
    render_encode (shortest_zero (by decide))
  rw [htext, encode_append, Binary.sign]
  cases x.negative with
  | false => exact .positive hrender
  | true => exact .negative hrender

theorem numberText_not_finite {x : Double} (h : x.isFinite = false) :
    Line.numberText x = "null" := by
  simp [Line.numberText, Binary.data?, h]

end Numbers

end FrameLoop

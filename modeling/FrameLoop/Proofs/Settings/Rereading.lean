import FrameLoop.Proofs.Json.Narrowing
import FrameLoop.Proofs.Settings.Accepted
import FrameLoop.Settings.File

/-! The text of a setting, read back. A frame rate comes back as it was, and so do numbers and words; an
interval comes back as a number near it, which is the same one if it was written with few digits. -/

namespace FrameLoop

open Decimal Binary Json

variable {F : FloatFormat}

theorem shortest_bounds {x : Binary F} (hm : 0 < x.mantissa) {q : ℚ}
    (h : (Interval.around x).Has q) : x.size / 2 ≤ q ∧ q ≤ 2 * x.size := by
  have hunit := Interval.unit_pos x
  have hone : (1 : ℚ) ≤ x.mantissa := by exact_mod_cast hm
  have hsize : x.size = 4 * (x.mantissa * (Interval.around x).unit) := by
    rw [Binary.size, Interval.scale_unit]
    ring
  have hmul := mul_le_mul_of_nonneg_right hone hunit.le
  obtain ⟨hl, hu⟩ := h.bounds
  rw [around_lower hm] at hl
  rw [around_upper] at hu
  rw [hsize]
  constructor
  · split_ifs at hl <;> linarith
  · linarith

/-- What is known of the text of a positive number, and of the number that is read from it. -/
structure Rewritten (x : Binary F) (limit n : ℕ) (e : ℤ) (y : Double) : Prop where
  shortened : ∃ c k, Shortened (Interval.around x) (shortest .even x) c k
  spells : Spells limit n e (shortest .even x)
  reads : Reads n e y
  text : ∀ positive rest, EndsNumber rest →
    unsigned positive (encode ((Layout.data F).render (shortest .even x)) ++ rest) =
      assembled positive n e rest

theorem exists_rewritten {x : Binary F} (hF : F.fraction ≤ 52) {low high : ℤ}
    (hdata : Layout.data F = ⟨some (low, high), true, .even⟩) {limit : ℕ} (hlimit : limit ≤ 2 ^ 64)
    (hhigh : 10 ^ (high + 2).toNat ≤ limit) (hm : 0 < x.mantissa) (hlow : 2 ^ (-1074 : ℤ) ≤ x.size)
    (hup : x.size < 2 ^ (200 : ℤ)) : ∃ n e y, Rewritten x limit n e y := by
  obtain ⟨c, k, hshort⟩ := shortest_shortened hF .even hm
  have hhas : (Interval.around x).Has (shortest .even x).size := hshort.size ▸ hshort.closest.has
  obtain ⟨hdown, htop⟩ := shortest_bounds hm hhas
  have hpos := (half_pos (size_pos_iff.mpr hm)).trans_le hdown
  have hdigits := digits_pos hpos
  have hlt : (shortest .even x).digits < 2 ^ 64 :=
    (hshort.digits_le.trans hshort.le).trans_lt (by norm_num)
  have hexp : -342 ≤ (shortest .even x).exponent := by
    apply hshort.le_exponent_of_size
    refine le_trans ?_ hdown
    rw [le_div_iff₀ two_pos]
    refine le_trans ?_ hlow
    rw [zpow_neg 2, show (-342 + 18 : ℤ) = -324 by norm_num, zpow_neg, ← one_div, ← one_div,
      div_mul_eq_mul_div, one_mul, div_le_div_iff₀ (by positivity) (by positivity)]
    have hwhole : 2 * 2 ^ 1074 ≤ 1 * 10 ^ 324 := by decide +kernel
    exact_mod_cast hwhole
  have hexp' : (shortest .even x).exponent < 61 := by
    apply Decimal.exponent_lt hdigits
    refine htop.trans_lt ((mul_lt_mul_of_pos_left hup two_pos).trans ?_)
    norm_num
  obtain ⟨n, e, hspells, htext⟩ := render_reads hlt low high .even hlimit hhigh
    (fun hzero => absurd hzero hdigits.ne') (by omega)
  have hn : 0 < n := digits_pos (d := ⟨n, e⟩) (hpos.trans_eq hspells.size.symm)
  have hn' : n < 2 ^ 64 := by
    rcases hspells.shape with ⟨rfl, -⟩ | ⟨-, -, -, hless⟩
    · exact hlt
    · exact hless.trans_le hlimit
  have he : -616 ≤ e ∧ e ≤ 308 := by
    rcases hspells.shape with ⟨-, rfl⟩ | ⟨rfl, -⟩ <;> omega
  have hsmall : (n : ℚ) * 10 ^ e < 2 ^ (1000 : ℤ) := by
    rw [hspells.size]
    refine htop.trans_lt ((mul_lt_mul_of_pos_left hup two_pos).trans ?_)
    rw [← zpow_one_add₀ two_ne_zero]
    exact zpow_lt_zpow_right₀ one_lt_two (by norm_num)
  obtain ⟨y, hreads⟩ := exists_reads hn hn' he.1 he.2 hsmall
  exact ⟨n, e, y, ⟨c, k, hshort⟩, hspells, hreads, by rwa [hdata]⟩

theorem assembled_of_reads {n : ℕ} {e : ℤ} {y : Double} (h : Reads n e y) (rest : Bytes) :
    assembled true n e rest = .ok (.real y, rest) := by
  unfold assembled assemble
  rw [h.scaled]
  rfl

namespace Settings

theorem digit_starts {b : UInt8} (hb : Byte.isDigit b = true) :
    Byte.isBlank b = false ∧ b ≠ Byte.minus ∧ startsNumber b = true := by
  have h48 : 48 ≤ b.toNat := by
    simp only [Byte.isDigit, Bool.and_eq_true, decide_eq_true_eq, UInt8.le_iff_toNat_le] at hb
    exact hb.1
  have hne (c : UInt8) (hc : c.toNat < 48) : b ≠ c := by
    rintro rfl
    omega
  refine ⟨?_, hne _ (by decide), ?_⟩
  · simp [Byte.isBlank, hne 32 (by decide), hne 10 (by decide), hne 9 (by decide), hne 13 (by decide)]
  · rw [startsNumber, hb, Bool.or_true]

section

variable {α : Type} {wanted : String} {accept : Number → Except Cause α} {n : Number} {v : α}
  {s rest : Bytes}

theorem readNumber_unsigned (h : unsigned true s = .ok (n, rest)) (ha : accept n = .ok v) :
    readNumber wanted accept s = .ok (v, rest) := by
  cases s with
  | nil => cases h
  | cons b t =>
    have hb : Byte.isDigit b = true := by
      by_contra hb
      rw [unsigned] at h
      simp [hb] at h
    obtain ⟨hblank, hminus, hstarts⟩ := digit_starts hb
    have hskip : skipBlank (b :: t) = b :: t := by simp [skipBlank, hblank]
    unfold readNumber
    rw [hskip]
    simp only [hstarts, if_true, Json.number, if_neg hminus, h, ha]

theorem readNumber_negative (h : unsigned false s = .ok (n, rest)) (ha : accept n = .ok v) :
    readNumber wanted accept (Byte.minus :: s) = .ok (v, rest) := by
  have hskip : skipBlank (Byte.minus :: s) = Byte.minus :: s := rfl
  have hstarts : startsNumber Byte.minus = true := rfl
  unfold readNumber
  rw [hskip]
  simp only [hstarts, if_true, Json.number, h, ha]

end

theorem floatText_toList {x : Binary F} (hfinite : x.isFinite = true) :
    (floatText x).toList = x.sign.toList ++ (Layout.data F).render (shortest .even x) := by
  rw [floatText, data?, if_pos hfinite]
  change (x.sign ++ String.ofList ((Layout.data F).render (shortest (Layout.data F).tie x))).toList = _
  rw [String.toList_append, String.toList_ofList]
  rfl

theorem floatText_positive {x : Binary F} (hfinite : x.isFinite = true) (hsign : x.negative = false) :
    (floatText x).toList = (Layout.data F).render (shortest .even x) := by
  rw [floatText_toList hfinite, sign, hsign]
  rfl

/-- Reading either zero. -/
theorem readSingle_zero (negative : Bool) {rest : Bytes} (hrest : EndsNumber rest) :
    readSingle (encode (floatText (zero negative : Single)).toList ++ rest) =
      .ok (zero negative, rest) := by
  have hshort : shortest .even (zero negative : Single) = ⟨0, 0⟩ := by cases negative <;> rfl
  obtain ⟨n, e, hspells, htext⟩ := render_reads (d := ⟨0, 0⟩) (by decide) (-6) 12 .even
    (by decide : 10 ^ 14 ≤ 2 ^ 64) (by decide) (fun _ => rfl) (by decide)
  have hassembled (positive : Bool) :
      assembled positive n e rest = .ok (.real (zero (!positive)), rest) := by
    rcases hspells.shape with ⟨rfl, rfl⟩ | ⟨rfl, -, rfl, -⟩ <;> cases positive <;> rfl
  rw [floatText_toList (by cases negative <;> rfl), hshort, encode_append]
  cases negative
  · exact readNumber_unsigned ((htext true rest hrest).trans (hassembled true)) rfl
  · exact readNumber_negative ((htext false rest hrest).trans (hassembled false)) rfl

theorem readSingle_text {x : Single} (hx : RateAccepted x) {rest : Bytes} (hrest : EndsNumber rest) :
    readSingle (encode (floatText x).toList ++ rest) = .ok (x, rest) := by
  by_cases hm : 0 < x.mantissa
  · obtain ⟨hsign, hnormal, hscale, hscale'⟩ := hx.normal hm
    have hmq : (1 : ℚ) ≤ x.mantissa := by exact_mod_cast hm
    have hmq' : (x.mantissa : ℚ) < 2 ^ (24 : ℤ) := by exact_mod_cast x.mantissa_lt
    have hpow : (0 : ℚ) < 2 ^ x.scale := by positivity
    have hlow : (2 : ℚ) ^ (-1074 : ℤ) ≤ x.size := by
      calc (2 : ℚ) ^ (-1074 : ℤ) ≤ 2 ^ x.scale := zpow_le_zpow_right₀ one_le_two (by omega)
        _ ≤ x.size := le_mul_of_one_le_left hpow.le hmq
    have hup : x.size < 2 ^ (200 : ℤ) := by
      calc x.size < 2 ^ (24 : ℤ) * 2 ^ x.scale := mul_lt_mul_of_pos_right hmq' hpow
        _ = 2 ^ (24 + x.scale) := (zpow_add₀ two_ne_zero _ _).symm
        _ ≤ 2 ^ (200 : ℤ) := zpow_le_zpow_right₀ one_le_two (by omega)
    obtain ⟨n, e, y, ⟨c, k, hshort⟩, hspells, hreads, htext⟩ := exists_rewritten (x := x) (by decide)
      rfl (by decide : 10 ^ 14 ≤ 2 ^ 64) (by decide) hm hlow hup
    have hmag := narrowed hx.finite hnormal hscale hscale' hshort hreads
      ⟨hspells.size, hspells.shape.imp_right fun ⟨h1, h2, h3, h4⟩ => ⟨h1, h2, h3, h4.trans (by norm_num)⟩⟩
    obtain ⟨hconvert, -⟩ := convert_rounds (G := .single) hreads.finite
    have hback : (y.convert : Single) = x := Binary.ext (by rw [hconvert, hreads.positive, hsign]) hmag
    rw [floatText_positive hx.finite hsign]
    apply readNumber_unsigned ((htext true rest hrest).trans (assembled_of_reads hreads rest))
    rw [acceptFloat, hback]
  · have hmag : x.magnitude = 0 := Nat.eq_zero_of_not_pos (mt mantissa_pos_iff.mpr hm)
    have hzero : x = zero x.negative := Binary.ext rfl hmag
    rw [hzero]
    exact readSingle_zero _ hrest

/-- The number that is read where a number was written. -/
def reread (x : Double) : Double :=
  match readDouble (floatText x).toUTF8.toList with
  | .ok (y, _) => y
  | .error _ => x

/-- The interval of a number is half a place wide to either side, at most. -/
theorem dist_of_has {x : Double} (hm : 0 < x.mantissa) {q : ℚ} (h : (Interval.around x).Has q) :
    |q - x.size| ≤ x.size / 2 ^ 53 + 2 ^ (-1075 : ℤ) := by
  have hunit := Interval.unit_pos x
  have hleast : (0 : ℚ) < 2 ^ (-1075 : ℤ) := by positivity
  have hsize : x.size = 4 * (x.mantissa * (Interval.around x).unit) := by
    rw [Binary.size, Interval.scale_unit]
    ring
  obtain ⟨hl, hu⟩ := h.bounds
  rw [around_lower hm] at hl
  rw [around_upper] at hu
  have hwide : 2 * (Interval.around x).unit ≤ x.size / 2 ^ 53 + 2 ^ (-1075 : ℤ) := by
    rcases eq_or_lt_of_le x.least_le_scale with heq | hlt
    · have hplace : 2 * (Interval.around x).unit = 2 ^ (-1075 : ℤ) := by
        rw [Interval.around_unit, ← heq, ← zpow_one_add₀ two_ne_zero]
        rfl
      rw [hplace]
      have hpos := div_nonneg x.size_nonneg (by positivity : (0 : ℚ) ≤ 2 ^ 53)
      linarith
    · have hnormal : (2 : ℚ) ^ 52 ≤ x.mantissa := by exact_mod_cast le_mantissa hlt
      have hmul := mul_le_mul_of_nonneg_right hnormal hunit.le
      rw [hsize]
      linarith
  rw [abs_le, hsize]
  rw [hsize] at hwide
  constructor
  · split_ifs at hl <;> linarith
  · linarith

variable {x : Double} (hx : IntervalAccepted x)

include hx

theorem least_le_interval : 2 ^ (-1074 : ℤ) ≤ x.size := by
  have hm : (1 : ℚ) ≤ x.mantissa := by exact_mod_cast hx.pos
  have hpow : (0 : ℚ) < 2 ^ x.scale := by positivity
  calc (2 : ℚ) ^ (-1074 : ℤ) ≤ 2 ^ x.scale := zpow_le_zpow_right₀ one_le_two x.least_le_scale
    _ ≤ x.size := le_mul_of_one_le_left hpow.le hm

theorem reread_spec : ∃ n e, Rewritten x (10 ^ 17) n e (reread x) ∧ ∀ rest, EndsNumber rest →
    readDouble (encode (floatText x).toList ++ rest) = .ok (reread x, rest) := by
  have hup : x.size < 2 ^ (200 : ℤ) := hx.lt.trans (by norm_num)
  obtain ⟨n, e, y, hrewritten⟩ := exists_rewritten (x := x) (by decide) rfl
    (by decide : 10 ^ 17 ≤ 2 ^ 64) (by decide) hx.pos (least_le_interval hx) hup
  have hread (rest : Bytes) (hrest : EndsNumber rest) :
      readDouble (encode (floatText x).toList ++ rest) = .ok (y, rest) := by
    rw [floatText_positive hx.finite hx.positive]
    apply readNumber_unsigned ((hrewritten.text true rest hrest).trans
      (assembled_of_reads hrewritten.reads rest))
    rw [acceptFloat, convert_self hrewritten.reads.finite]
  have hself : reread x = y := by
    have hend := hread [] ⟨rfl, rfl, by simp⟩
    rw [List.append_nil] at hend
    unfold reread
    rw [toUTF8_toList, hend]
  rw [hself]
  exact ⟨n, e, hrewritten, hread⟩

theorem reread_close : |(reread x).size - x.size| ≤ x.size / 2 ^ 49 + 2 ^ (-1073 : ℤ) := by
  obtain ⟨n, e, ⟨⟨c, k, hshort⟩, hspells, hreads, -⟩, -⟩ := reread_spec hx
  have hdist := dist_of_has hx.pos (hshort.size ▸ hshort.closest.has)
  have hwithin := hreads.within
  rw [hspells.size] at hwithin
  unfold Within at hwithin
  have hupper := (abs_le.mp hdist).2
  have hleast : (0 : ℚ) < 2 ^ (-1075 : ℤ) := by positivity
  have hdouble : (2 : ℚ) ^ (-1074 : ℤ) = 2 * 2 ^ (-1075 : ℤ) := by
    rw [← zpow_one_add₀ two_ne_zero]
    norm_num
  have hfour : (2 : ℚ) ^ (-1073 : ℤ) = 4 * 2 ^ (-1075 : ℤ) := by
    rw [show (4 : ℚ) = 2 ^ (2 : ℤ) by norm_num, ← zpow_add₀ two_ne_zero]
    norm_num
  have hpos := x.size_nonneg
  have hsum := abs_add_le ((reread x).size - (shortest .even x).size) ((shortest .even x).size - x.size)
  rw [sub_add_sub_cancel] at hsum
  rw [hdouble] at hwithin
  rw [hfour]
  linarith

/-- Digits that are read without an error before the last rounding; the zero decimal of a whole number
counts. -/
def FewDigits (d : Decimal) : Prop :=
  d.digits * 10 ^ (d.exponent + 1).toNat < 2 ^ 53 ∧ -22 ≤ d.exponent

theorem reread_same (hfew : FewDigits (shortest .even x)) : reread x = x := by
  obtain ⟨n, e, ⟨⟨c, k, hshort⟩, hspells, hreads, -⟩, -⟩ := reread_spec hx
  obtain ⟨hdigits, hexp⟩ := hfew
  have hhas : (Interval.around x).Has (shortest .even x).size := hshort.size ▸ hshort.closest.has
  obtain ⟨hn, he⟩ : n < 2 ^ 53 ∧ e.natAbs ≤ 22 := by
    rcases hspells.shape with ⟨rfl, rfl⟩ | ⟨rfl, hk, rfl, -⟩
    · refine ⟨(Nat.le_mul_of_pos_right _ (by positivity)).trans_lt hdigits, ?_⟩
      have hpos := digits_pos
        ((half_pos (size_pos_iff.mpr hx.pos)).trans_le (shortest_bounds hx.pos hhas).1)
      have hpow : 10 ^ ((shortest .even x).exponent + 1).toNat < 10 ^ 16 :=
        (Nat.le_mul_of_pos_left _ hpos).trans_lt (hdigits.trans (by norm_num))
      have hless := (Nat.pow_lt_pow_iff_right (by norm_num)).mp hpow
      omega
    · refine ⟨?_, by decide⟩
      rwa [show ((shortest .even x).exponent + 1).toNat = (shortest .even x).exponent.toNat + 1 by
        omega] at hdigits
  have hrounds := hreads.rounds hn he
  rw [hspells.size] at hrounds
  exact Binary.ext (hreads.positive.trans hx.positive.symm)
    (hrounds.magnitude_eq hx.finite hx.pos hhas)

omit hx in
/-- Whether the digits of an interval are read as an accepted one. -/
def survives (x : Double) : Bool :=
  let d := shortest .even x
  (scaleByTen 5 (ofNat d.digits) d.exponent).all
      (fun y => y.isPositive && (Duration.ofSeconds? y).isSome) &&
    decide (d.exponent < 0 ∨ 10 ^ 17 ≤ d.digits * 10 ^ (d.exponent.toNat + 1))

omit hx in
/-- Patterns of intervals next to the ends of the accepted range: an error of reading could leave it. -/
def edges : List ℕ := 1 :: (List.range 16).map (1087 * 2 ^ 52 - 1 - ·)

omit hx in
theorem shortest_least : shortest .even (ofBits 1 : Double) = ⟨5, -324⟩ := by
  have htop : log10Ratio 4 (2 ^ 1076) = -324 := by
    apply log10Ratio_eq (by norm_num) (by positivity)
    · have hwhole : 1 * 2 ^ 1076 ≤ 4 * 10 ^ 324 := by decide +kernel
      have hcast := (Nat.cast_le (α := ℚ)).mpr hwhole
      rw [zpow_neg, zpow_ofNat, ← one_div, div_le_div_iff₀ (by positivity) (by positivity)]
      simpa only [Nat.cast_mul, Nat.cast_pow, Nat.cast_ofNat, Nat.cast_one] using hcast
    · have hwhole : 4 * 10 ^ 323 < 1 * 2 ^ 1076 := by decide +kernel
      have hcast := (Nat.cast_lt (α := ℚ)).mpr hwhole
      rw [show (-324 + 1 : ℤ) = -323 by norm_num, zpow_neg, zpow_ofNat, ← one_div,
        div_lt_div_iff₀ (by positivity) (by positivity)]
      simpa only [Nat.cast_mul, Nat.cast_pow, Nat.cast_ofNat, Nat.cast_one] using hcast
  have hnum : (Interval.around (ofBits 1 : Double)).value *
      (Interval.around (ofBits 1 : Double)).unitNum = 4 := by decide +kernel
  have hden : (Interval.around (ofBits 1 : Double)).unitDen = 2 ^ 1076 := by decide +kernel
  unfold shortest
  dsimp only
  rw [hnum, hden, htop]
  decide +kernel

omit hx in
theorem edges_survive {bits : ℕ} (h : bits ∈ edges) : survives (ofBits bits) = true := by
  rcases List.mem_cons.mp h with rfl | hmem
  · unfold survives
    rw [shortest_least]
    decide +kernel
  · have hall : (((List.range 16).map (1087 * 2 ^ 52 - 1 - ·)).all fun bits =>
        survives (ofBits bits)) = true := by decide +kernel
    exact List.all_eq_true.mp hall bits hmem

theorem reread_edge {bits : ℕ} (hbits : bits ∈ edges) (heq : x = ofBits bits) :
    IntervalAccepted (reread x) := by
  obtain ⟨n, e, ⟨-, hspells, hreads, -⟩, -⟩ := reread_spec hx
  have hsurvives := edges_survive hbits
  rw [← heq, survives, Bool.and_eq_true, decide_eq_true_eq] at hsurvives
  obtain ⟨hall, hshape⟩ := hsurvives
  rcases hspells.shape with ⟨rfl, rfl⟩ | ⟨-, hk, hn, hless⟩
  · rw [hreads.scaled] at hall
    exact intervalAccepted_iff.mp hall
  · rcases hshape with hneg | hmany <;> omega

theorem edge_of_magnitude (hmem : x.magnitude ∈ edges) : IntervalAccepted (reread x) := by
  apply reread_edge hx hmem
  have hlt := x.magnitude_lt
  apply Binary.ext
  · rw [hx.positive, ofBits, Nat.div_eq_of_lt hlt]
    rfl
  · exact (Nat.mod_eq_of_lt hlt).symm

omit hx in
theorem magnitude_eq_scale (x : Double) :
    x.magnitude = (x.scale + 1074).toNat * 2 ^ 52 + x.mantissa := by
  have hpattern := x.magnitude_eq
  have hplace : x.scale - FloatFormat.double.least = x.scale + 1074 := by
    change x.scale - -1074 = x.scale + 1074
    omega
  rwa [pattern, hplace] at hpattern

theorem two_le_mantissa (hone : x.magnitude ≠ 1) : 2 ≤ x.mantissa := by
  have hmag := magnitude_eq_scale x
  have hpos := hx.pos
  have hleast : (-1074 : ℤ) ≤ x.scale := x.least_le_scale
  rcases eq_or_lt_of_le hleast with heq | hlt
  · omega
  · have hnormal : 2 ^ 52 ≤ x.mantissa := le_mantissa (show FloatFormat.double.least < x.scale from hlt)
    exact le_trans (by norm_num) hnormal

/-- Above the least number there is room for the errors of reading. -/
theorem reread_pos (hone : x.magnitude ≠ 1) : 0 < (reread x).size := by
  obtain ⟨n, e, ⟨⟨c, p, hshort⟩, hspells, hreads, -⟩, -⟩ := reread_spec hx
  have hm : (2 : ℚ) ≤ x.mantissa := by exact_mod_cast two_le_mantissa hx hone
  have hleast : (0 : ℚ) < 2 ^ (-1076 : ℤ) := by positivity
  have hunit : (2 : ℚ) ^ (-1076 : ℤ) ≤ 2 ^ (x.scale - 2) := by
    have hscale : (-1074 : ℤ) ≤ x.scale := x.least_le_scale
    exact zpow_le_zpow_right₀ one_le_two (by omega)
  have hplace : (2 : ℚ) ^ (-1074 : ℤ) = 4 * 2 ^ (-1076 : ℤ) := by
    rw [show (4 : ℚ) = 2 ^ (2 : ℤ) by norm_num, ← zpow_add₀ two_ne_zero]
    norm_num
  have hshortest : 6 * 2 ^ (-1076 : ℤ) ≤ (shortest .even x).size := by
    have hlower := (hshort.size ▸ hshort.closest.has).bounds.1
    rw [around_lower hx.pos, Interval.around_unit] at hlower
    refine le_trans ?_ hlower
    apply mul_le_mul _ hunit hleast.le _
    · split_ifs <;> linarith
    · split_ifs <;> linarith
  have hwithin := hreads.within.bounds.1
  rw [hspells.size, hplace] at hwithin
  linarith

theorem size_le_off_top (htop : ∀ i < 16, 1087 * 2 ^ 52 - 1 - i ≠ x.magnitude) :
    x.size ≤ 2 ^ 64 - 17 * 2 ^ 11 := by
  have hmag := magnitude_eq_scale x
  have hpow : (0 : ℚ) < 2 ^ x.scale := by positivity
  have hlast : x.mantissa < 2 ^ 53 := x.mantissa_lt
  rcases lt_trichotomy x.scale 11 with hless | heq | hmore
  · have hm : (x.mantissa : ℚ) ≤ 2 ^ 53 := by exact_mod_cast hlast.le
    calc x.size ≤ 2 ^ 53 * 2 ^ (10 : ℤ) :=
          mul_le_mul hm (zpow_le_zpow_right₀ one_le_two (by omega)) hpow.le (by norm_num)
      _ ≤ 2 ^ 64 - 17 * 2 ^ 11 := by norm_num
  · have hm : x.mantissa + 17 ≤ 2 ^ 53 := by
      by_contra hmore
      exact htop (2 ^ 53 - 1 - x.mantissa) (by omega) (by omega)
    have hm' : (x.mantissa : ℚ) + 17 ≤ 2 ^ 53 := by exact_mod_cast hm
    have hplace : (2 : ℚ) ^ (11 : ℤ) = 2 ^ 11 := by norm_num
    rw [Binary.size, heq, hplace]
    linarith
  · have hnormal : 2 ^ 52 ≤ x.mantissa :=
      le_mantissa (show FloatFormat.double.least < x.scale from lt_trans (by decide) hmore)
    have hm : (2 : ℚ) ^ 52 ≤ x.mantissa := by exact_mod_cast hnormal
    have hscale : (2 : ℚ) ^ (12 : ℤ) ≤ 2 ^ x.scale := zpow_le_zpow_right₀ one_le_two (by omega)
    have hlarge : (2 : ℚ) ^ 52 * 2 ^ (12 : ℤ) ≤ x.size :=
      mul_le_mul hm hscale (by positivity) (by positivity)
    have hlt := hx.lt
    norm_num at hlarge hlt
    linarith

/-- Below the last numbers of the accepted range there is room for the errors of reading. -/
theorem reread_lt (htop : ∀ i < 16, 1087 * 2 ^ 52 - 1 - i ≠ x.magnitude) :
    (reread x).size < 2 ^ 64 := by
  have hclose := (abs_le.mp (reread_close hx)).2
  have hsize := size_le_off_top hx htop
  have hleast : (2 : ℚ) ^ (-1073 : ℤ) ≤ 1 := zpow_le_one_of_nonpos₀ one_le_two (by norm_num)
  have hfraction : x.size / 2 ^ 49 ≤ 2 ^ 15 := by
    rw [div_le_iff₀ (by positivity), ← pow_add]
    have hlt := hx.lt.le
    norm_num at hlt ⊢
    exact hlt
  norm_num at hsize hfraction ⊢
  linarith

/-- What is read for an accepted interval is accepted. -/
theorem reread_accepted : IntervalAccepted (reread x) := by
  by_cases hedge : x.magnitude ∈ edges
  · exact edge_of_magnitude hx hedge
  · simp only [edges, List.mem_cons, List.mem_map, List.mem_range, not_or, not_exists, not_and] at hedge
    obtain ⟨n, e, ⟨-, -, hreads, -⟩, -⟩ := reread_spec hx
    exact ⟨hreads.finite, hreads.positive, size_pos_iff.mp (reread_pos hx hedge.1),
      reread_lt hx hedge.2⟩

end Settings

end FrameLoop

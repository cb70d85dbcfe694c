import FrameLoop.Proofs.Decimal.Separation
import FrameLoop.Proofs.Json.NumberText
import FrameLoop.Proofs.Json.Scaling

/-! Single precision numbers that are read in double precision. The shortest digits of a number may lie
next to an end of its interval only if they are few, and few digits keep more distance from the ends
than the errors of reading come to; so narrowing what was read gives the number back. -/

namespace FrameLoop

open Decimal Binary

namespace Decimal.Shortened

variable {i : Interval} {d : Decimal} {c : ℕ} {k : ℤ}

theorem le_exponent_of_size (h : Shortened i d c k) {z : ℤ} (hz : 10 ^ (z + 18) ≤ d.size) :
    z ≤ d.exponent := by
  have hc : (c : ℚ) < 10 ^ (18 : ℤ) := by
    have hle : (c : ℚ) ≤ (2 * 10 ^ 17 : ℕ) := by exact_mod_cast h.le
    refine hle.trans_lt ?_
    norm_num
  have hpow : (0 : ℚ) < 10 ^ k := by positivity
  have hlt : (10 : ℚ) ^ (z + 18) < 10 ^ (18 + k) := by
    rw [zpow_add₀ (by norm_num) 18 k]
    rw [h.size] at hz
    exact hz.trans_lt (mul_lt_mul_of_pos_right hc hpow)
  have hexp := (zpow_lt_zpow_iff_right₀ (by norm_num : (1 : ℚ) < 10)).mp hlt
  have hle := h.le_exponent
  omega

end Decimal.Shortened

theorem Decimal.exponent_lt {d : Decimal} (hd : 0 < d.digits) {z : ℤ} (hz : d.size < 10 ^ z) :
    d.exponent < z := by
  have hone : (1 : ℚ) ≤ d.digits := by exact_mod_cast hd
  have hpow : (0 : ℚ) < 10 ^ d.exponent := by positivity
  have hle : (10 : ℚ) ^ d.exponent ≤ d.size := le_mul_of_one_le_left hpow.le hone
  exact (zpow_lt_zpow_iff_right₀ (by norm_num : (1 : ℚ) < 10)).mp (hle.trans_lt hz)

namespace Decimal.Interval

variable {i : Interval} {q p w : ℚ}

/-- The ends of an interval. -/
def IsEnd (i : Interval) (w : ℚ) : Prop := w = i.lower * i.unit ∨ w = i.upper * i.unit

/-- A point of a grid that is fine for both sides of an interval has a nearer one beside it where it is
next to an end. -/
theorem Closest.far_from_end {step margin : ℚ} (h : i.Closest step p) (hstep : 0 < step)
    (hlow : step + 2 * margin < 2 * (i.value * i.unit - i.lower * i.unit))
    (hhigh : step + 2 * margin < 2 * (i.upper * i.unit - i.value * i.unit)) (hw : i.IsEnd w) :
    margin < |p - w| := by
  by_contra hnear
  obtain ⟨hdown, hup⟩ := abs_le.mp (not_lt.mp hnear)
  obtain ⟨hl, hu⟩ := h.has.bounds
  rcases hw with rfl | rfl
  · have hcloser := h.above (has_of_lt (by linarith) (by linarith))
    rw [abs_of_nonpos (by linarith)] at hcloser
    have hfarther : |p + step - i.value * i.unit| < -(p - i.value * i.unit) :=
      abs_lt.mpr ⟨by linarith, by linarith⟩
    exact absurd hcloser (not_le.mpr hfarther)
  · have hcloser := h.below (has_of_lt (by linarith) (by linarith))
    rw [abs_of_nonneg (by linarith)] at hcloser
    have hfarther : |p - step - i.value * i.unit| < p - i.value * i.unit :=
      abs_lt.mpr ⟨by linarith, by linarith⟩
    exact absurd hcloser (not_le.mpr hfarther)

/-- A ratio that is nearer to one in the interval than the ends are is in the interval too. -/
theorem Has.of_nearer (h : i.Has p)
    (hnear : ∀ w, i.IsEnd w → (p = w ∧ q = p) ∨ |q - p| < |p - w|) : i.Has q := by
  obtain ⟨hl, hu⟩ := h.bounds
  rcases hnear _ (Or.inl rfl) with ⟨-, rfl⟩ | hlow
  · exact h
  · rcases hnear _ (Or.inr rfl) with ⟨-, rfl⟩ | hhigh
    · exact h
    · rw [abs_of_nonneg (by linarith : 0 ≤ p - i.lower * i.unit)] at hlow
      rw [abs_of_nonpos (by linarith : p - i.upper * i.unit ≤ 0)] at hhigh
      have hlow' := abs_lt.mp hlow
      have hhigh' := abs_lt.mp hhigh
      exact has_of_lt (by linarith) (by linarith)

end Decimal.Interval

section

variable {x : Single} (hm : 2 ^ 23 ≤ x.mantissa)

include hm

/-- The grid of many digits is finer than the lower side of the interval, which is the smaller one. -/
theorem fine_grid {c : ℕ} {k : ℤ} (hmany : 17000000 ≤ c) (h : (Interval.around x).Has (c * 10 ^ k)) :
    (10 : ℚ) ^ k ≤ 198 / 100 * (4 * x.mantissa * (Interval.around x).unit -
      (Interval.around x).lower * (Interval.around x).unit) := by
  have hunit := Interval.unit_pos x
  have hc : (17000000 : ℚ) ≤ c := by exact_mod_cast hmany
  have hgrid := mul_le_mul_of_nonneg_right hc (by positivity : (0 : ℚ) ≤ 10 ^ k)
  have hu := h.bounds.2
  rw [around_upper] at hu
  rw [around_lower (by omega)]
  by_cases hnarrow : x.isNarrow = true
  · have heq : x.mantissa = 2 ^ 23 := by
      simp only [isNarrow, Bool.and_eq_true, beq_iff_eq] at hnarrow
      exact hnarrow.1
    have hleast : (x.mantissa : ℚ) = 2 ^ 23 := by
      rw [heq]
      norm_num
    rw [if_pos hnarrow]
    rw [hleast] at hu ⊢
    linarith
  · have hlt : ((x.mantissa + 1 : ℕ) : ℚ) ≤ (2 ^ 24 : ℕ) := by exact_mod_cast x.mantissa_lt
    push_cast at hlt
    have hmul := mul_le_mul_of_nonneg_right hlt hunit.le
    rw [if_neg hnarrow]
    linarith

/-- The shortest digits are next to an end of the interval only if they are few: otherwise their grid
is fine enough to have a nearer point. -/
theorem few_of_near_end {c : ℕ} {k : ℤ} {w : ℚ}
    (h : (Interval.around x).Closest (10 ^ k) (c * 10 ^ k)) (hw : (Interval.around x).IsEnd w)
    (hnear : |(c : ℚ) * 10 ^ k - w| ≤ 1 / 2 ^ 50 * (c * 10 ^ k)) : c ≤ fewDigits := by
  by_contra hmany
  have hunit := Interval.unit_pos x
  have hfine := fine_grid hm (not_le.mp hmany).le h.has
  have hvalue : (((Interval.around x).value : ℕ) : ℚ) = 4 * x.mantissa := by
    change ((4 * x.mantissa : ℕ) : ℚ) = _
    push_cast
    rfl
  have hlt : ((x.mantissa + 1 : ℕ) : ℚ) ≤ (2 ^ 24 : ℕ) := by exact_mod_cast x.mantissa_lt
  push_cast at hlt
  have hmul := mul_le_mul_of_nonneg_right hlt hunit.le
  have hupper := h.has.bounds.2
  rw [around_upper] at hupper
  have htiny : 1 / 2 ^ 50 * ((c : ℚ) * 10 ^ k) ≤ 1 / 2 ^ 20 * (Interval.around x).unit := by linarith
  rw [around_lower (by omega)] at hfine
  have hfar : 1 / 2 ^ 50 * ((c : ℚ) * 10 ^ k) < |(c : ℚ) * 10 ^ k - w| := by
    apply h.far_from_end (by positivity) _ _ hw
    · rw [hvalue, around_lower (by omega)]
      split_ifs at hfine ⊢ <;> linarith
    · rw [hvalue, around_upper]
      split_ifs at hfine <;> linarith
  exact absurd hnear (not_le.mpr hfar)

/-- The ends of the interval have one place more than the number, or two. -/
theorem end_places {w : ℚ} (hw : (Interval.around x).IsEnd w) : ∃ (n : ℕ) (t : ℤ),
    w = n * 2 ^ t ∧ 2 ^ 23 - 1 ≤ n ∧ n < 2 ^ 25 ∧ x.scale - 2 ≤ t ∧ t ≤ x.scale - 1 := by
  have hpos : 0 < x.mantissa := by omega
  have hlt : x.mantissa < 2 ^ 24 := x.mantissa_lt
  have hhalf : (2 : ℚ) ^ (x.scale - 1) = 2 * 2 ^ (x.scale - 2) := by
    rw [← zpow_one_add₀ two_ne_zero]
    congr 1
    ring
  unfold Interval.IsEnd at hw
  rw [Interval.around_unit, around_lower hpos, around_upper] at hw
  rcases hw with rfl | rfl
  · by_cases hnarrow : x.isNarrow = true
    · have heq : x.mantissa = 2 ^ 23 := by
        simp only [isNarrow, Bool.and_eq_true, beq_iff_eq] at hnarrow
        exact hnarrow.1
      refine ⟨2 ^ 25 - 1, x.scale - 2, ?_, by norm_num, by norm_num, le_rfl, by omega⟩
      rw [if_pos hnarrow, heq]
      norm_num
    · refine ⟨2 * x.mantissa - 1, x.scale - 1, ?_, by omega, by omega, by omega, le_rfl⟩
      rw [if_neg hnarrow, hhalf, Nat.cast_sub (by omega)]
      push_cast
      ring
  · refine ⟨2 * x.mantissa + 1, x.scale - 1, ?_, by omega, by omega, by omega, le_rfl⟩
    rw [hhalf]
    push_cast
    ring

end

namespace Json

variable {x : Single} {d : Decimal} {c n : ℕ} {k e : ℤ} {y : Double}

theorem Spells.few (h : Spells (2 ^ 53) n e d) (hfew : d.digits ≤ fewDigits) : n < 2 ^ 53 := by
  rcases h.shape with ⟨rfl, -⟩ | ⟨-, -, -, hn⟩
  · exact hfew.trans_lt (by norm_num [fewDigits])
  · exact hn

/-- Few digits are read precisely enough to be told from the ends of an interval. -/
theorem reads_few (hread : Reads n e y) (hspells : Spells (2 ^ 53) n e d)
    (hfew : d.digits ≤ fewDigits) (he : -308 ≤ e) (hlarge : (2 : ℚ) ^ (-1000 : ℤ) ≤ d.size) :
    Within (1 / sharpness d.exponent) 0 y.size d.size ∧
      (d.exponent.natAbs ≤ 22 → y.Rounds d.size) := by
  have hn := hspells.few hfew
  have hpos : 0 < d.size := lt_of_lt_of_le (by positivity) hlarge
  rw [← hspells.size] at hlarge hpos ⊢
  have hrounds (hexp : d.exponent.natAbs ≤ 22) : y.Rounds (n * 10 ^ e) := by
    apply hread.rounds hn
    rcases hspells.shape with ⟨-, rfl⟩ | ⟨rfl, -⟩
    · exact hexp
    · decide
  refine ⟨?_, hrounds⟩
  unfold sharpness
  split_ifs with hexp
  · have hmin : (2 : ℚ) ^ (-1022 : ℤ) ≤ n * 10 ^ e :=
      (zpow_le_zpow_right₀ one_le_two (by norm_num)).trans hlarge
    have hwithin := relative_of_rounds (hrounds hexp) hmin hread.finite
    exact hwithin.mono hpos.le (by norm_num) le_rfl
  · have hwithin := hread.relative he hlarge
    rw [if_pos hn] at hwithin
    exact hwithin.mono hpos.le (by norm_num) le_rfl

/-- The accepted numbers but the zeros lie well inside the range of double precision. -/
theorem size_range (hm : 2 ^ 23 ≤ x.mantissa) (hscale : -88 ≤ x.scale) (hscale' : x.scale ≤ 104) {q : ℚ}
    (h : (Interval.around x).Has q) : 2 ^ (-66 : ℤ) ≤ q ∧ q ≤ 2 ^ (128 : ℤ) := by
  obtain ⟨hl, hu⟩ := h.bounds
  rw [around_lower (by omega)] at hl
  rw [around_upper] at hu
  rw [Interval.around_unit] at hl hu
  have hmq : (2 : ℚ) ^ 23 ≤ x.mantissa := by exact_mod_cast hm
  have hmq' : ((x.mantissa + 1 : ℕ) : ℚ) ≤ (2 ^ 24 : ℕ) := by exact_mod_cast x.mantissa_lt
  push_cast at hmq'
  have hdown : (2 : ℚ) ^ (-90 : ℤ) ≤ 2 ^ (x.scale - 2) := zpow_le_zpow_right₀ one_le_two (by omega)
  have hup : (2 : ℚ) ^ (x.scale - 2) ≤ 2 ^ (102 : ℤ) := zpow_le_zpow_right₀ one_le_two (by omega)
  have hunit : (0 : ℚ) < 2 ^ (x.scale - 2) := by positivity
  constructor
  · calc (2 : ℚ) ^ (-66 : ℤ) = 2 ^ 24 * 2 ^ (-90 : ℤ) := by norm_num
      _ ≤ 2 ^ 24 * 2 ^ (x.scale - 2) := mul_le_mul_of_nonneg_left hdown (by norm_num)
      _ ≤ _ := mul_le_mul_of_nonneg_right (by split_ifs <;> linarith) hunit.le
      _ ≤ q := hl
  · calc q ≤ _ := hu
      _ ≤ 2 ^ 26 * 2 ^ (x.scale - 2) := mul_le_mul_of_nonneg_right (by linarith) hunit.le
      _ ≤ 2 ^ 26 * 2 ^ (102 : ℤ) := mul_le_mul_of_nonneg_left hup (by norm_num)
      _ = 2 ^ (128 : ℤ) := by norm_num

theorem le_exponent_of_few (hfew : d.digits ≤ fewDigits) (hlow : 2 ^ (-66 : ℤ) ≤ d.size) :
    -28 ≤ d.exponent := by
  have hfew' : (d.digits : ℚ) ≤ 10 ^ 8 := by
    have hle : d.digits ≤ 10 ^ 8 := hfew.trans (by norm_num [fewDigits])
    exact_mod_cast hle
  have hpow : (0 : ℚ) < 10 ^ d.exponent := by positivity
  have hlt : (10 : ℚ) ^ (-20 : ℤ) < 10 ^ (8 + d.exponent) := by
    calc (10 : ℚ) ^ (-20 : ℤ) < 2 ^ (-66 : ℤ) := by norm_num
      _ ≤ d.digits * 10 ^ d.exponent := hlow
      _ ≤ 10 ^ 8 * 10 ^ d.exponent := mul_le_mul_of_nonneg_right hfew' hpow.le
      _ = 10 ^ (8 + d.exponent) := by
        rw [zpow_add₀ (by norm_num)]
        rfl
  have hless := (zpow_lt_zpow_iff_right₀ (by norm_num : (1 : ℚ) < 10)).mp hlt
  omega

/-- Few digits are a binary number of few places, or are read as a number nearer than that one. -/
theorem reads_nearer (hread : Reads n e y) (hspells : Spells (2 ^ 53) n e d) (hdigits : 0 < d.digits)
    (hfew : d.digits ≤ fewDigits) (he : -308 ≤ e) (hlow : 2 ^ (-66 : ℤ) ≤ d.size) (hexp : d.exponent ≤ 38)
    {m : ℕ} {t : ℤ} (hm : 2 ^ 23 - 1 ≤ m) (hm' : m < 2 ^ 25) (ht : -90 ≤ t) (ht' : t ≤ 103) :
    (d.size = m * 2 ^ t ∧ y.size = d.size) ∨ |y.size - d.size| < |d.size - m * 2 ^ t| := by
  obtain ⟨hwithin, hexact⟩ := reads_few hread hspells hfew he
    ((zpow_le_zpow_right₀ one_le_two (by norm_num)).trans hlow)
  by_cases hend : |d.size - m * 2 ^ t| ≤ 1 / sharpness d.exponent * d.size
  · have hapart := keepsApart_of_range (le_exponent_of_few hfew hlow) hexp ht ht'
    obtain ⟨hsmall, heq⟩ := separated hapart hdigits hfew hm hm' hend
    left
    change d.size = m * 2 ^ t at heq
    refine ⟨heq, ?_⟩
    have hrounds := hexact hsmall
    rw [heq] at hrounds ⊢
    apply hrounds.exact hread.finite
    · change (-1074 : ℤ) ≤ t
      omega
    · exact hm'.trans (by decide)
    · omega
  · right
    unfold Within at hwithin
    rw [add_zero] at hwithin
    exact hwithin.trans_lt (not_le.mp hend)

theorem narrowed (hfinite : x.isFinite = true) (hm : 2 ^ 23 ≤ x.mantissa) (hscale : -88 ≤ x.scale)
    (hscale' : x.scale ≤ 104) (hshort : Shortened (Interval.around x) d c k) (hread : Reads n e y)
    (hspells : Spells (2 ^ 53) n e d) : (y.convert : Single).magnitude = x.magnitude := by
  have hhas : (Interval.around x).Has d.size := hshort.size ▸ hshort.closest.has
  obtain ⟨hlow, hhigh⟩ := size_range hm hscale hscale' hhas
  have hpos : 0 < d.size := lt_of_lt_of_le (by positivity) hlow
  have hlarge : (2 : ℚ) ^ (-1000 : ℤ) ≤ d.size :=
    (zpow_le_zpow_right₀ one_le_two (by norm_num)).trans hlow
  have hdigits := digits_pos hpos
  have hexp : -38 ≤ d.exponent := by
    apply hshort.le_exponent_of_size
    refine le_trans ?_ hlow
    norm_num
  have hexp' : d.exponent < 39 := by
    apply Decimal.exponent_lt hdigits
    refine hhigh.trans_lt ?_
    norm_num
  have he : -308 ≤ e := by
    rcases hspells.shape with ⟨-, rfl⟩ | ⟨rfl, -⟩ <;> omega
  have hrelative : |y.size - d.size| ≤ 1 / 2 ^ 50 * d.size := by
    have hwithin := hread.relative he (hspells.size ▸ hlarge)
    rw [hspells.size] at hwithin
    have hmono : Within (1 / 2 ^ 50) 0 y.size d.size :=
      hwithin.mono hpos.le (by split_ifs <;> norm_num) le_rfl
    unfold Within at hmono
    rwa [add_zero] at hmono
  obtain ⟨-, hrounds⟩ := convert_rounds (G := .single) hread.finite
  apply hrounds.magnitude_eq hfinite (by omega)
  apply hhas.of_nearer
  intro w hw
  -- away from the ends the error of reading is too small to matter; next to one the digits are few
  by_cases hnear : |d.size - w| ≤ 1 / 2 ^ 50 * d.size
  · have hc := few_of_near_end hm hshort.closest hw (by rwa [← hshort.size])
    obtain ⟨m, t, rfl, hm', hm'', ht, ht'⟩ := end_places hm hw
    exact reads_nearer hread hspells hdigits (hshort.digits_le.trans hc) he hlow (by omega) hm' hm''
      (by omega) (by omega)
  · right
    exact hrelative.trans_lt (not_le.mp hnear)

end Json

end FrameLoop

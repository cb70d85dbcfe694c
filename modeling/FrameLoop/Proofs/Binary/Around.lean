import FrameLoop.Proofs.Binary.Rounding

/-! The interval around a number holds the ratios that are rounded to it. -/

namespace FrameLoop

open Decimal

namespace Decimal.Interval

def unit (i : Interval) : ℚ := i.unitNum / i.unitDen

/-- The ratio lies in the interval. -/
def Has (i : Interval) (q : ℚ) : Prop :=
  if i.closed then i.lower * i.unit ≤ q ∧ q ≤ i.upper * i.unit
  else i.lower * i.unit < q ∧ q < i.upper * i.unit

theorem Has.bounds {i : Interval} {q : ℚ} (h : i.Has q) :
    i.lower * i.unit ≤ q ∧ q ≤ i.upper * i.unit := by
  unfold Has at h
  split_ifs at h
  · exact h
  · exact ⟨h.1.le, h.2.le⟩

/-- Its ends belong to the interval of an even number only. -/
theorem Has.closed {i : Interval} {q : ℚ} (h : i.Has q)
    (hend : q = i.lower * i.unit ∨ q = i.upper * i.unit) : i.closed = true := by
  by_contra hopen
  unfold Has at h
  rw [if_neg hopen] at h
  rcases hend with hl | hu
  · exact absurd h.1 (hl ▸ lt_irrefl _)
  · exact absurd h.2 (hu ▸ lt_irrefl _)

theorem has_of_lt {i : Interval} {q : ℚ} (hl : i.lower * i.unit < q) (hu : q < i.upper * i.unit) :
    i.Has q := by
  unfold Has
  split_ifs
  · exact ⟨hl.le, hu.le⟩
  · exact ⟨hl, hu⟩

variable {F : FloatFormat}

theorem around_unit (x : Binary F) : (around x).unit = 2 ^ (x.scale - 2) := by
  unfold unit around
  dsimp only
  by_cases h : 0 ≤ x.scale - 2
  · rw [two_zpow_toNat h, Int.toNat_of_nonpos (by omega)]
    simp
  · rw [two_zpow_toNat_neg h, Int.toNat_of_nonpos (not_le.mp h).le]
    simp

theorem unit_pos (x : Binary F) : (0 : ℚ) < (around x).unit := by
  rw [around_unit]
  positivity

/-- The place below that of a number has half its weight, and so on. -/
theorem scale_unit (x : Binary F) : (2 : ℚ) ^ x.scale = 4 * (around x).unit := by
  rw [around_unit, zpow_sub₀ two_ne_zero]
  norm_num
  ring

end Decimal.Interval

namespace Binary

variable {F : FloatFormat} {x : Binary F}

/-- A number whose lower neighbour is nearer than its upper one. -/
def isNarrow (x : Binary F) : Bool := x.mantissa == Nat.pow 2 F.fraction && F.least < x.scale

theorem around_lower (hx : 0 < x.mantissa) :
    ((Interval.around x).lower : ℚ) = 4 * x.mantissa - if x.isNarrow then 1 else 2 := by
  have hle : (if x.isNarrow then 1 else 2) ≤ 4 * x.mantissa := by split_ifs <;> omega
  change ((4 * x.mantissa - (if x.isNarrow then 1 else 2) : ℕ) : ℚ) = _
  rw [Nat.cast_sub hle]
  push_cast
  split_ifs <;> simp

theorem around_upper : ((Interval.around x).upper : ℚ) = 4 * x.mantissa + 2 := by
  change ((4 * x.mantissa + 2 : ℕ) : ℚ) = _
  push_cast
  rfl

theorem two_zpow_add_fraction (place : ℤ) (n : ℕ) : (2 : ℚ) ^ (place + n) = 2 ^ n * 2 ^ place := by
  rw [← zpow_natCast (2 : ℚ) n, ← zpow_add₀ two_ne_zero, add_comm]

section

variable {q : ℚ} (hx : 0 < x.mantissa) (h : (Interval.around x).Has q)

include hx h

omit hx in
theorem lt_top_of_has : q < 2 ^ (x.scale + F.fraction + 1) := by
  have hunit := Interval.unit_pos x
  have hu := h.bounds.2
  rw [around_upper] at hu
  have hm : ((x.mantissa + 1 : ℕ) : ℚ) ≤ (2 ^ (F.fraction + 1) : ℕ) := by
    exact_mod_cast x.mantissa_lt
  push_cast at hm
  have hsplit : (2 : ℚ) ^ (x.scale + F.fraction + 1) = 2 ^ (F.fraction + 1) * 2 ^ x.scale := by
    rw [← two_zpow_add_fraction]
    push_cast
    rw [add_assoc]
  rw [hsplit, Interval.scale_unit]
  have htop := mul_le_mul_of_nonneg_right hm hunit.le
  linarith

/-- Only the interval of a power of two reaches below it into finer places. -/
theorem mantissa_of_below (hnormal : F.least < x.scale) (hbelow : q < 2 ^ (x.scale + F.fraction)) :
    x.mantissa = 2 ^ F.fraction := by
  have hunit := Interval.unit_pos x
  have hl := h.bounds.1
  rw [around_lower hx] at hl
  by_contra hne
  have hnext : ((2 ^ F.fraction + 1 : ℕ) : ℚ) ≤ x.mantissa := by
    exact_mod_cast lt_of_le_of_ne (le_mantissa hnormal) (Ne.symm hne)
  push_cast at hnext
  have hup := mul_le_mul_of_nonneg_right hnext hunit.le
  rw [two_zpow_add_fraction, Interval.scale_unit] at hbelow
  split_ifs at hl <;> linarith

theorem rounded_below (hnormal : F.least < x.scale) (hbelow : q < 2 ^ (x.scale + F.fraction)) :
    Rounded F q (x.scale - 1) (2 ^ (F.fraction + 1)) := by
  have hunit := Interval.unit_pos x
  have hm := mantissa_of_below hx h hnormal hbelow
  have hmq : (x.mantissa : ℚ) = 2 ^ F.fraction := by
    rw [hm]
    push_cast
    rfl
  have hnarrow : x.isNarrow = true := by
    simp [isNarrow, hm, hnormal]
  have hl := h.bounds.1
  rw [around_lower hx, hnarrow, if_pos rfl, hmq] at hl
  rw [two_zpow_add_fraction, Interval.scale_unit] at hbelow
  have hhalf : (2 : ℚ) ^ (x.scale - 1) = 2 * (Interval.around x).unit := by
    rw [zpow_sub_one₀ two_ne_zero, Interval.scale_unit]
    ring
  have hone : (1 : ℚ) ≤ 2 ^ F.fraction := one_le_pow₀ one_le_two
  have hgrow := mul_le_mul_of_nonneg_right hone hunit.le
  have hdist : q / 2 ^ (x.scale - 1) - ((2 ^ (F.fraction + 1) : ℕ) : ℚ) =
      (q - 4 * 2 ^ F.fraction * (Interval.around x).unit) / (2 * (Interval.around x).unit) := by
    rw [hhalf]
    push_cast
    field_simp
    ring
  refine ⟨by omega, ⟨?_, fun _ => by omega⟩, ?_, fun _ => ?_⟩
  · rw [hdist, abs_div, abs_of_pos (by positivity : (0 : ℚ) < 2 * (Interval.around x).unit),
      div_le_iff₀ (by positivity), abs_le]
    constructor <;> linarith
  · rw [show x.scale - 1 + F.fraction + 1 = x.scale + F.fraction by ring, two_zpow_add_fraction,
      Interval.scale_unit]
    linarith
  · rw [two_zpow_add_fraction, hhalf]
    linarith

theorem rounded_at_scale (hplace : F.least < x.scale → 2 ^ (x.scale + F.fraction) ≤ q) :
    Rounded F q x.scale x.mantissa := by
  have hunit := Interval.unit_pos x
  obtain ⟨hl, hu⟩ := h.bounds
  have hclosed := h.closed
  rw [around_upper] at hu hclosed
  rw [around_lower hx] at hl hclosed
  have hdist : q / 2 ^ x.scale - (x.mantissa : ℚ) =
      (q - 4 * x.mantissa * (Interval.around x).unit) / (4 * (Interval.around x).unit) := by
    rw [Interval.scale_unit]
    field_simp
  have hfour : (0 : ℚ) < 4 * (Interval.around x).unit := by positivity
  refine ⟨x.least_le_scale, ⟨?_, fun htie => ?_⟩, lt_top_of_has h, hplace⟩
  · rw [hdist, abs_div, abs_of_pos hfour, div_le_iff₀ hfour, abs_le]
    split_ifs at hl <;> constructor <;> linarith
  · rw [hdist, abs_div, abs_of_pos hfour, div_eq_iff hfour.ne'] at htie
    have heven : (Interval.around x).closed = true := by
      apply hclosed
      rcases abs_choice (q - 4 * x.mantissa * (Interval.around x).unit) with habs | habs
      · right
        linarith
      · left
        split_ifs at hl ⊢ <;> linarith
    simpa [Interval.around] using heven

/-- A ratio in the interval of a number is rounded at the place of the number, or at the one below it
if the number is a power of two and the ratio is less. -/
theorem rounded_of_has :
    ∃ place mantissa, Rounded F q place mantissa ∧ pattern F place mantissa = x.magnitude := by
  by_cases hplace : F.least < x.scale ∧ q < 2 ^ (x.scale + F.fraction)
  · obtain ⟨hnormal, hbelow⟩ := hplace
    refine ⟨x.scale - 1, 2 ^ (F.fraction + 1), rounded_below hx h hnormal hbelow, ?_⟩
    obtain ⟨k, hk⟩ : ∃ k : ℕ, x.scale = F.least + (k + 1 : ℕ) :=
      ⟨(x.scale - F.least - 1).toNat, by omega⟩
    have hdown : (x.scale - 1 - F.least).toNat = k := by omega
    have hup : (x.scale - F.least).toNat = k + 1 := by omega
    rw [magnitude_eq, mantissa_of_below hx h hnormal hbelow, pattern, pattern, pow_succ, hdown, hup,
      Nat.pow_eq]
    ring
  · refine ⟨x.scale, x.mantissa, rounded_at_scale hx h fun hnormal => ?_, (magnitude_eq x).symm⟩
    by_contra hbelow
    exact hplace ⟨hnormal, not_le.mp hbelow⟩

end

/-- A ratio in the interval of a finite number is rounded to it. -/
theorem roundMagnitude_of_has (hfinite : x.isFinite = true) (hx : 0 < x.mantissa) {n d : ℕ}
    (hn : 0 < n) (hd : 0 < d) (h : (Interval.around x).Has (n / d)) :
    roundMagnitude F n d = x.magnitude := by
  obtain ⟨place, mantissa, hrounded, hpattern⟩ := rounded_of_has hx h
  obtain ⟨place', mantissa', hrounded', hresult⟩ := roundMagnitude_eq (F := F) hn hd
  obtain ⟨rfl, rfl⟩ := hrounded.unique hrounded'
  have hlt : x.magnitude < F.infinity := by simpa [isFinite] using hfinite
  rw [hresult, hpattern, min_eq_right hlt.le]

end Binary

end FrameLoop

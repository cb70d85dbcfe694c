import FrameLoop.Binary.Arithmetic
import FrameLoop.Proofs.Binary.Around

/-! What arithmetic gives: the exact result, rounded. A rounded result is close to the exact one, and
it is the exact one where the format has it. -/

namespace FrameLoop

namespace FloatFormat

/-- Ratios below this power of two are rounded to finite numbers. -/
def top (F : FloatFormat) : ℤ := F.least + F.fraction + (2 ^ F.exponent - 3)

end FloatFormat

namespace Binary

variable {F G : FloatFormat} {x y : Binary F} {q : ℚ}

/-- The magnitude of the number is the one that a ratio is rounded to. -/
def Rounds (y : Binary F) (q : ℚ) : Prop :=
  ∃ n d : ℕ, 0 < d ∧ (n : ℚ) / d = q ∧ y.magnitude = roundMagnitude F n d

theorem ext {x y : Binary F} (hsign : x.negative = y.negative) (hmag : x.magnitude = y.magnitude) :
    x = y := by
  cases x
  cases y
  cases hsign
  cases hmag
  rfl

theorem not_special (hx : x.isFinite = true) : x.isNan = false ∧ x.isInfinite = false := by
  simp only [isFinite, decide_eq_true_eq] at hx
  simp only [isNan, isInfinite, decide_eq_false_iff_not, beq_eq_false_iff_ne]
  omega

theorem mantissa_pos_iff : 0 < x.mantissa ↔ 0 < x.magnitude := by
  have hpos : 0 < Nat.pow 2 F.fraction := Nat.two_pow_pos _
  unfold mantissa
  split_ifs <;> omega

theorem size_nonneg (x : Binary F) : 0 ≤ x.size := by
  unfold size
  positivity

theorem size_pos_iff : 0 < x.size ↔ 0 < x.mantissa := by
  have hpow : (0 : ℚ) < 2 ^ x.scale := by positivity
  rw [size, mul_pos_iff_of_pos_right hpow, Nat.cast_pos]

theorem ofScaled_rounds (negative : Bool) (n : ℕ) (e : ℤ) {d : ℕ} (hd : 0 < d) :
    (ofScaled negative n e d : Binary F).Rounds (n * 2 ^ e / d) := by
  unfold ofScaled
  split_ifs with he
  · refine ⟨n * Nat.pow 2 e.toNat, d, hd, ?_, rfl⟩
    rw [Nat.cast_mul, two_zpow_toNat he]
  · refine ⟨n, d * Nat.pow 2 (-e).toNat, Nat.mul_pos hd (Nat.two_pow_pos _), ?_, rfl⟩
    rw [Nat.cast_mul, two_zpow_toNat_neg he]
    field_simp

theorem ofNat_rounds (n : ℕ) : (ofNat n : Binary F).Rounds n :=
  ⟨n, 1, Nat.one_pos, by simp, rfl⟩

theorem mul_rounds (hx : x.isFinite = true) (hy : y.isFinite = true) :
    (x * y).negative = (x.negative != y.negative) ∧ (x * y).Rounds (x.size * y.size) := by
  obtain ⟨hnan, hinf⟩ := not_special hx
  obtain ⟨hnan', hinf'⟩ := not_special hy
  have hmul : x * y = ofScaled (x.negative != y.negative) (x.mantissa * y.mantissa)
      (x.scale + y.scale) 1 := by
    change mul x y = _
    simp [mul, hnan, hinf, hnan', hinf']
  have hsize : x.size * y.size =
      ((x.mantissa * y.mantissa : ℕ) : ℚ) * 2 ^ (x.scale + y.scale) / (1 : ℕ) := by
    rw [size, size, zpow_add₀ two_ne_zero]
    push_cast
    ring
  rw [hmul, hsize]
  refine ⟨?_, ofScaled_rounds _ _ _ Nat.one_pos⟩
  unfold ofScaled
  split_ifs <;> rfl

theorem div_rounds (hx : x.isFinite = true) (hy : y.isFinite = true) (hpos : 0 < y.mantissa) :
    (x / y).negative = (x.negative != y.negative) ∧ (x / y).Rounds (x.size / y.size) := by
  obtain ⟨hnan, hinf⟩ := not_special hx
  obtain ⟨hnan', hinf'⟩ := not_special hy
  have hzero : y.isZero = false := by
    have hmag := mantissa_pos_iff.mp hpos
    simp only [isZero, beq_eq_false_iff_ne]
    omega
  have hdiv : x / y = ofScaled (x.negative != y.negative) x.mantissa (x.scale - y.scale)
      y.mantissa := by
    change div x y = _
    simp [div, hnan, hinf, hnan', hinf', hzero]
  have hsize : x.size / y.size = (x.mantissa : ℚ) * 2 ^ (x.scale - y.scale) / y.mantissa := by
    rw [size, size, zpow_sub₀ two_ne_zero]
    field_simp
  rw [hdiv, hsize]
  refine ⟨?_, ofScaled_rounds _ _ _ hpos⟩
  unfold ofScaled
  split_ifs <;> rfl

/-- A number that is not negative, in units of a power of two not above its last place. -/
theorem aligned_eq (hx : x.negative = false) {place : ℤ} (h : place ≤ x.scale) :
    ∃ n : ℕ, x.aligned place = n ∧ x.size = n * 2 ^ place := by
  refine ⟨x.mantissa * Nat.pow 2 (x.scale - place).toNat, ?_, ?_⟩
  · simp [aligned, hx]
  · have hplace : x.scale = (x.scale - place) + place := by ring
    rw [size, hplace, zpow_add₀ two_ne_zero, ← two_zpow_toNat (sub_nonneg.mpr h)]
    push_cast
    ring_nf

theorem add_rounds (hx : x.isFinite = true) (hy : y.isFinite = true) (hxs : x.negative = false)
    (hys : y.negative = false) :
    (x + y).negative = false ∧ (x + y).Rounds (x.size + y.size) := by
  obtain ⟨hnan, hinf⟩ := not_special hx
  obtain ⟨hnan', hinf'⟩ := not_special hy
  obtain ⟨n, hn, hxsize⟩ := aligned_eq hxs (min_le_left x.scale y.scale)
  obtain ⟨m, hm, hysize⟩ := aligned_eq hys (min_le_right x.scale y.scale)
  have hadd : x + y =
      if n + m = 0 then zero false else ofScaled false (n + m) (min x.scale y.scale) 1 := by
    have htotal : ¬ (n : ℤ) + m < 0 := by omega
    have hzero : (n : ℤ) + m = 0 ↔ n + m = 0 := by omega
    change add x y = _
    simp only [add, hnan, hinf, hnan', hinf', hxs, hn, hm, hzero, htotal, Bool.or_self,
      Bool.false_and, Bool.false_eq_true, if_false, decide_false, Int.natAbs_add_of_nonneg,
      Int.natCast_nonneg, Int.natAbs_natCast]
  have hsize : x.size + y.size = ((n + m : ℕ) : ℚ) * 2 ^ min x.scale y.scale / (1 : ℕ) := by
    rw [hxsize, hysize]
    push_cast
    ring
  rw [hadd, hsize]
  split_ifs with hnm
  · refine ⟨rfl, 0, 1, Nat.one_pos, ?_, rfl⟩
    simp [hnm]
  · refine ⟨?_, ofScaled_rounds _ _ _ Nat.one_pos⟩
    unfold ofScaled
    split_ifs <;> rfl

theorem convert_rounds (hx : x.isFinite = true) :
    (x.convert : Binary G).negative = x.negative ∧ (x.convert : Binary G).Rounds x.size := by
  obtain ⟨hnan, hinf⟩ := not_special hx
  have hconvert : (x.convert : Binary G) = ofScaled x.negative x.mantissa x.scale 1 := by
    simp [convert, hnan, hinf]
  have hsize : x.size = (x.mantissa : ℚ) * 2 ^ x.scale / (1 : ℕ) := by
    rw [size]
    simp
  rw [hconvert, hsize]
  refine ⟨?_, ofScaled_rounds _ _ _ Nat.one_pos⟩
  unfold ofScaled
  split_ifs <;> rfl

/-- A ratio above a number by less than half its last place belongs to it. -/
theorem has_of_above (hx : 0 < x.mantissa) (hle : x.size ≤ q)
    (hlt : q < x.size + 2 ^ x.scale / 2) : (Decimal.Interval.around x).Has q := by
  have hunit := Decimal.Interval.unit_pos x
  have hsize : x.size = 4 * x.mantissa * (Decimal.Interval.around x).unit := by
    rw [size, Decimal.Interval.scale_unit]
    ring
  rw [Decimal.Interval.scale_unit] at hlt
  apply Decimal.Interval.has_of_lt
  · rw [around_lower hx]
    split_ifs <;> nlinarith
  · rw [around_upper]
    nlinarith

theorem has_size (x : Binary F) (hx : 0 < x.mantissa) : (Decimal.Interval.around x).Has x.size :=
  has_of_above hx le_rfl (lt_add_of_pos_right _ (by positivity))

namespace Rounds

theorem zero (h : y.Rounds 0) : y.magnitude = 0 := by
  obtain ⟨n, d, hd, hq, hy⟩ := h
  have hd' : (d : ℚ) ≠ 0 := by exact_mod_cast hd.ne'
  have hn : n = 0 := by simpa [hd'] using hq
  rw [hy, hn]
  rfl

/-- A ratio in the interval of a number is rounded to that number. -/
theorem magnitude_eq (h : y.Rounds q) (hfinite : x.isFinite = true) (hx : 0 < x.mantissa)
    (hq : (Decimal.Interval.around x).Has q) : y.magnitude = x.magnitude := by
  obtain ⟨n, d, hd, rfl, hy⟩ := h
  have hd' : (0 : ℚ) < d := by exact_mod_cast hd
  have hunit := Decimal.Interval.unit_pos x
  have hlower := hq.bounds.1
  have hm : (1 : ℚ) ≤ x.mantissa := by exact_mod_cast hx
  rw [around_lower hx] at hlower
  have hn : 0 < n := by
    have hpos : (0 : ℚ) < n / d := by split_ifs at hlower <;> nlinarith
    exact_mod_cast (div_pos_iff_of_pos_right hd').mp hpos
  rw [hy]
  exact roundMagnitude_of_has hfinite hx hn hd hq

theorem rounded (h : y.Rounds q) (hq : 0 < q) : ∃ place mantissa, Rounded F q place mantissa ∧
    y.magnitude = min F.infinity (pattern F place mantissa) := by
  obtain ⟨n, d, hd, rfl, hy⟩ := h
  have hd' : (0 : ℚ) < d := by exact_mod_cast hd
  have hn : 0 < n := by exact_mod_cast (div_pos_iff_of_pos_right hd').mp hq
  obtain ⟨place, mantissa, hrounded, hresult⟩ := roundMagnitude_eq (F := F) hn hd
  exact ⟨place, mantissa, hrounded, hy.trans hresult⟩

theorem size_eq (h : y.Rounds q) (hq : 0 < q) (hfinite : y.isFinite = true) :
    ∃ place mantissa, Rounded F q place mantissa ∧ y.size = mantissa * 2 ^ place := by
  obtain ⟨place, mantissa, hrounded, hy⟩ := h.rounded hq
  have hlt : y.magnitude < F.infinity := by simpa [isFinite] using hfinite
  have hpattern : y.magnitude = pattern F place mantissa := by omega
  exact ⟨place, mantissa, hrounded,
    size_of_pattern hpattern hrounded.least_le hrounded.mantissa_le hrounded.le_mantissa⟩

theorem size_le {y' : Binary F} {q' : ℚ} (h : y.Rounds q) (h' : y'.Rounds q')
    (hy : y.isFinite = true) (hy' : y'.isFinite = true) (hq : 0 < q) (hle : q ≤ q') :
    y.size ≤ y'.size := by
  obtain ⟨place, mantissa, hrounded, hsize⟩ := h.size_eq hq hy
  obtain ⟨place', mantissa', hrounded', hsize'⟩ := h'.size_eq (hq.trans_le hle) hy'
  rw [hsize, hsize']
  exact hrounded.mul_zpow_le hrounded' hle

theorem isFinite (h : y.Rounds q) (hF : 2 ≤ F.exponent) (hq : q < 2 ^ F.top) :
    y.isFinite = true := by
  have hinf : 3 * 2 ^ F.fraction ≤ F.infinity := by
    have hfour : 2 ^ 2 ≤ 2 ^ F.exponent := Nat.pow_le_pow_right (by norm_num) hF
    exact Nat.mul_le_mul_right _ (Nat.le_sub_of_add_le hfour)
  have hpos : 0 < 2 ^ F.fraction := Nat.two_pow_pos _
  simp only [Binary.isFinite, decide_eq_true_eq]
  rcases le_or_gt q 0 with hneg | hpos'
  · obtain ⟨n, d, hd, rfl, hy⟩ := h
    have hd' : (0 : ℚ) < d := by exact_mod_cast hd
    have hn : n = 0 := by
      by_contra hne
      have hn' : (0 : ℚ) < n := by exact_mod_cast Nat.pos_of_ne_zero hne
      exact absurd hneg (not_le.mpr (div_pos hn' hd'))
    have hzero : roundMagnitude F 0 d = 0 := rfl
    rw [hy, hn, hzero]
    omega
  · obtain ⟨place, mantissa, hrounded, hy⟩ := h.rounded hpos'
    have hm := hrounded.mantissa_le
    rw [pow_succ] at hm
    have hplace : place = F.least ∨ place + F.fraction < F.top := by
      rcases eq_or_lt_of_le hrounded.least_le with heq | hlt
      · exact Or.inl heq.symm
      · right
        exact (zpow_lt_zpow_iff_right₀ one_lt_two).mp ((hrounded.le hlt).trans_lt hq)
    obtain ⟨k, hk⟩ : ∃ k : ℕ, place = F.least + k :=
      ⟨(place - F.least).toNat, by have := hrounded.least_le; omega⟩
    have hpattern : pattern F place mantissa = k * 2 ^ F.fraction + mantissa := by
      rw [pattern, hk, add_sub_cancel_left, Int.toNat_natCast, Nat.pow_eq]
    rw [hy, hpattern]
    rcases hplace with heq | hlt
    · obtain rfl : k = 0 := by omega
      rw [Nat.zero_mul, Nat.zero_add]
      omega
    · have hk' : k + 3 < 2 ^ F.exponent := by
        have hlt' : (k : ℤ) + 3 < 2 ^ F.exponent := by
          rw [hk, FloatFormat.top] at hlt
          linarith
        exact_mod_cast hlt'
      have hinf' : (k + 3) * 2 ^ F.fraction ≤ F.infinity :=
        Nat.mul_le_mul_right _ (Nat.le_sub_one_of_lt hk')
      rw [Nat.add_mul] at hinf'
      omega

/-- The error of a rounding is half a place: relative to the ratio if it is not too small, or else half
of the last place that there is. -/
theorem near (h : y.Rounds q) (hq : 0 < q) (hfinite : y.isFinite = true) :
    |y.size - q| ≤ q / 2 ^ (F.fraction + 1) ∨
      q < 2 ^ (F.least + F.fraction) ∧ |y.size - q| ≤ 2 ^ (F.least - 1) := by
  obtain ⟨place, mantissa, hrounded, hsize⟩ := h.size_eq hq hfinite
  have hdist := hrounded.dist_le
  rw [← hsize, abs_sub_comm] at hdist
  have hrelative : 2 ^ (place + F.fraction) ≤ q → |y.size - q| ≤ q / 2 ^ (F.fraction + 1) := by
    intro hle
    refine hdist.trans ?_
    rw [le_div_iff₀ (by positivity), pow_succ]
    rw [zpow_add₀ two_ne_zero, zpow_natCast] at hle
    linarith
  rcases eq_or_lt_of_le hrounded.least_le with heq | hlt
  · rcases le_or_gt (2 ^ (F.least + F.fraction)) q with hlarge | hsmall
    · exact Or.inl (hrelative (heq ▸ hlarge))
    · refine Or.inr ⟨hsmall, ?_⟩
      rwa [zpow_sub_one₀ two_ne_zero, heq]
  · exact Or.inl (hrelative (hrounded.le hlt))

/-- Ratios that the format has are not changed. -/
theorem exact {m : ℕ} {p : ℤ} (h : y.Rounds (m * 2 ^ p)) (hfinite : y.isFinite = true)
    (hp : F.least ≤ p) (hm : m < 2 ^ (F.fraction + 1)) (hpos : 0 < m) : y.size = m * 2 ^ p := by
  have hq : (0 : ℚ) < m * 2 ^ p := by positivity
  obtain ⟨place, mantissa, hrounded, hsize⟩ := h.size_eq hq hfinite
  have hplace : place ≤ p := by
    rcases eq_or_lt_of_le hrounded.least_le with heq | hlt
    · exact heq ▸ hp
    · have hm' : (m : ℚ) < 2 ^ (F.fraction + 1) := by exact_mod_cast hm
      have hpow : (0 : ℚ) < 2 ^ p := by positivity
      have hbound : (2 : ℚ) ^ (place + F.fraction) < 2 ^ (p + F.fraction + 1) := by
        refine (hrounded.le hlt).trans_lt ?_
        rw [show p + F.fraction + 1 = ((F.fraction + 1 : ℕ) : ℤ) + p by push_cast; ring,
          zpow_add₀ two_ne_zero, zpow_natCast]
        exact mul_lt_mul_of_pos_right hm' hpow
      have hexp := (zpow_lt_zpow_iff_right₀ (one_lt_two (α := ℚ))).mp hbound
      omega
  obtain ⟨k, rfl⟩ : ∃ k : ℕ, p = place + k := ⟨(p - place).toNat, by omega⟩
  have hplacePos : (2 : ℚ) ^ place ≠ 0 := by positivity
  have hwhole : (m : ℚ) * 2 ^ (place + (k : ℤ)) / 2 ^ place = ((m * 2 ^ k : ℕ) : ℚ) := by
    rw [zpow_add₀ two_ne_zero, zpow_natCast]
    push_cast
    field_simp
  have hnearest := hrounded.nearest
  rw [hwhole] at hnearest
  have hself : Nearest ((m * 2 ^ k : ℕ) : ℚ) (m * 2 ^ k) := by
    constructor
    · rw [sub_self, abs_zero]
      norm_num
    · intro htie
      rw [sub_self, abs_zero] at htie
      norm_num at htie
  rw [hsize, hnearest.unique hself, ← hwhole]
  field_simp

end Rounds

/-- A number that there is is not changed. -/
theorem Rounds.magnitude_self (h : y.Rounds x.size) (hx : x.isFinite = true) :
    y.magnitude = x.magnitude := by
  by_cases hpos : 0 < x.mantissa
  · exact h.magnitude_eq hx hpos (x.has_size hpos)
  · have hzero : x.mantissa = 0 := Nat.eq_zero_of_not_pos hpos
    rw [size, hzero, Nat.cast_zero, zero_mul] at h
    have hmag := mt mantissa_pos_iff.mpr hpos
    rw [h.zero]
    omega

/-- A finite number of its own format is itself. -/
theorem convert_self (hx : x.isFinite = true) : (x.convert : Binary F) = x := by
  obtain ⟨hsign, hrounds⟩ := convert_rounds (G := F) hx
  exact ext hsign (hrounds.magnitude_self hx)

end Binary

end FrameLoop

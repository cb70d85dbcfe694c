import FrameLoop.Proofs.Binary.Operations
import FrameLoop.Settings.Basic

/-! What accepted settings are, as sizes: a rate that is zero or has a normal pattern far from the ends
of single precision, thread counts that are not negative, and a positive interval below `2 ^ 64`. -/

namespace FrameLoop

open Binary

variable {F : FloatFormat} {x : Binary F}

theorem Binary.size_mul_two_pow (x : Binary F) :
    x.size * 2 ^ (-x.scale).toNat = x.mantissa * 2 ^ x.scale.toNat := by
  rw [size, mul_assoc, ← zpow_natCast, ← zpow_natCast, ← zpow_add₀ two_ne_zero]
  congr 2
  omega

theorem Duration.ofSeconds?_isSome_iff : (Duration.ofSeconds? x).isSome = true ↔
    x.isFinite = true ∧ (x.negative = true → x.isZero = true) ∧ x.size < 2 ^ 64 := by
  have hpow : (0 : ℚ) < 2 ^ (-x.scale).toNat := by positivity
  have hlarge : Duration.maxSeconds * Nat.pow 2 (-x.scale).toNat ≤
      x.mantissa * Nat.pow 2 x.scale.toNat ↔ (2 : ℚ) ^ 64 ≤ x.size := by
    rw [← mul_le_mul_iff_left₀ hpow, x.size_mul_two_pow, ← Nat.cast_le (α := ℚ)]
    simp only [Duration.maxSeconds, Nat.pow_eq]
    push_cast
    rfl
  unfold Duration.ofSeconds?
  by_cases hfinite : x.isFinite = true
  · by_cases hsign : x.negative = true → x.isZero = true
    · have hcheck : (!x.isFinite || x.negative && !x.isZero) = false := by
        rw [hfinite]
        cases hn : x.negative
        · rfl
        · rw [hsign hn]
          rfl
      rw [hcheck, if_neg (by decide)]
      dsimp only
      split_ifs with hbig
      · have hsize := hlarge.mp hbig
        simp only [Option.isSome_none, Bool.false_eq_true, false_iff, not_and, not_lt]
        exact fun _ _ => hsize
      · have hsize := lt_of_not_ge (mt hlarge.mpr hbig)
        simp only [Option.isSome_some, true_iff]
        exact ⟨hfinite, hsign, hsize⟩
    · have hcheck : (!x.isFinite || x.negative && !x.isZero) = true := by
        cases hn : x.negative <;> cases hz : x.isZero <;> simp_all
      rw [hcheck, if_pos rfl]
      simp only [Option.isSome_none, Bool.false_eq_true, false_iff]
      exact fun h => hsign h.2.1
  · have hcheck : (!x.isFinite || x.negative && !x.isZero) = true := by simp [hfinite]
    rw [hcheck, if_pos rfl]
    simp only [Option.isSome_none, Bool.false_eq_true, false_iff]
    exact fun h => hfinite h.1

theorem Duration.ofSeconds?_nearest {d : Duration} (h : Duration.ofSeconds? x = some d) :
    Nearest (x.size * 10 ^ 9) d := by
  unfold ofSeconds? at h
  dsimp only at h
  split_ifs at h
  obtain rfl := Option.some.inj h
  have hpow : (2 : ℚ) ^ (-x.scale).toNat ≠ 0 := by positivity
  have hratio : x.size * 10 ^ 9 = ((x.mantissa * Nat.pow 2 x.scale.toNat * second : ℕ) : ℚ) /
      (Nat.pow 2 (-x.scale).toNat : ℕ) := by
    simp only [Nat.pow_eq, second]
    push_cast
    rw [← x.size_mul_two_pow]
    field_simp
    norm_num
  rw [hratio]
  exact divRoundEven_nearest _ (Nat.two_pow_pos _)

theorem isPositive_iff (hfinite : x.isFinite = true) :
    x.isPositive = true ↔ x.negative = false ∧ 0 < x.mantissa := by
  have hnan := (not_special hfinite).1
  have hzero : (zero false : Binary F).isNan = false := by
    simp [isNan, zero]
  rw [mantissa_pos_iff, isPositive, lt, hnan, hzero]
  simp only [Bool.not_false, Bool.true_and, decide_eq_true_eq, rank, zero, Bool.false_eq_true, if_false]
  cases x.negative
  · simp
  · simp only [if_true, Bool.true_eq_false, false_and, iff_false]
    omega

theorem lt_zero_iff (hfinite : x.isFinite = true) :
    x.lt (zero false) = true ↔ x.negative = true ∧ 0 < x.mantissa := by
  have hnan := (not_special hfinite).1
  have hzero : (zero false : Binary F).isNan = false := by
    simp [isNan, zero]
  rw [mantissa_pos_iff, lt, hnan, hzero]
  simp only [Bool.not_false, Bool.true_and, decide_eq_true_eq, rank, zero, Bool.false_eq_true, if_false]
  cases x.negative
  · simp only [Bool.false_eq_true, if_false, false_and, iff_false]
    omega
  · simp

theorem one_div_rounds {x : Single} (hfinite : x.isFinite = true) (hm : 0 < x.mantissa) :
    (ofNat 1 / x).Rounds (1 / x.size) := by
  have hone : (ofNat 1 : Single).isFinite = true := by decide
  have hsize : (ofNat 1 : Single).size = 1 := by
    have hrounds : (ofNat 1 : Single).Rounds ((1 : ℕ) * 2 ^ (0 : ℤ)) := by
      simpa using ofNat_rounds (F := .single) 1
    have hexact := hrounds.exact hone (by decide) (by decide) one_pos
    simpa using hexact
  obtain ⟨-, hrounds⟩ := div_rounds hone hfinite hm
  rwa [hsize] at hrounds

namespace Settings

/-- An accepted rate is zero, or its bits are far from the ends of the format. -/
structure RateAccepted (x : Single) : Prop where
  finite : x.isFinite = true
  normal : 0 < x.mantissa → x.negative = false ∧ 2 ^ 23 ≤ x.mantissa ∧ -88 ≤ x.scale ∧ x.scale ≤ 104

structure IntervalAccepted (x : Double) : Prop where
  finite : x.isFinite = true
  positive : x.negative = false
  pos : 0 < x.mantissa
  lt : x.size < 2 ^ 64

theorem intervalAccepted_iff {x : Double} :
    (x.isPositive && (Duration.ofSeconds? x).isSome) = true ↔ IntervalAccepted x := by
  rw [Bool.and_eq_true, Duration.ofSeconds?_isSome_iff]
  constructor
  · rintro ⟨hpos, hfinite, -, hlt⟩
    obtain ⟨hsign, hm⟩ := (isPositive_iff hfinite).mp hpos
    exact ⟨hfinite, hsign, hm, hlt⟩
  · rintro ⟨hfinite, hsign, hm, hlt⟩
    refine ⟨(isPositive_iff hfinite).mpr ⟨hsign, hm⟩, hfinite, fun h => ?_, hlt⟩
    rw [hsign] at h
    cases h

/-- A rate whose frames have a duration is not too small. -/
theorem lt_of_ofRate? {x : Single} (hfinite : x.isFinite = true) (hm : 0 < x.mantissa)
    (h : (Duration.ofRate? x).isSome = true) : 2 ^ (-65 : ℤ) < x.size := by
  obtain ⟨hquotient, -, hlt⟩ := Duration.ofSeconds?_isSome_iff.mp h
  have hx : 0 < x.size := size_pos_iff.mpr hm
  have hrounds := one_div_rounds hfinite hm
  have hq : 0 < 1 / x.size := by positivity
  have hbound : 1 / x.size < 2 ^ (65 : ℤ) := by
    have hpow : (2 : ℚ) ^ (65 : ℤ) = 2 * 2 ^ 64 := by norm_num
    rcases hrounds.near hq hquotient with hnear | ⟨hsmall, -⟩
    · have hlow := (abs_le.mp hnear).1
      change -(1 / x.size / 2 ^ 24) ≤ (ofNat 1 / x).size - 1 / x.size at hlow
      rw [hpow]
      linarith
    · exact hsmall.trans (zpow_lt_zpow_right₀ one_lt_two (by decide))
  have hflip := one_div_lt_one_div_of_lt hq hbound
  rwa [one_div_one_div, one_div, ← zpow_neg] at hflip

theorem rateAccepted {x : Single} (hfinite : x.isFinite = true) (hsign : ¬ x.lt (.zero false) = true)
    (hrate : x.isPositive = true → (Duration.ofRate? x).isSome = true) : RateAccepted x := by
  refine ⟨hfinite, fun hm => ?_⟩
  have hnegative : x.negative = false := by
    by_contra hneg
    exact hsign ((lt_zero_iff hfinite).mpr ⟨by simpa using hneg, hm⟩)
  have hsize := lt_of_ofRate? hfinite hm (hrate ((isPositive_iff hfinite).mpr ⟨hnegative, hm⟩))
  have hscale : -88 ≤ x.scale := by
    have hlt : (x.mantissa : ℚ) < 2 ^ 24 := by exact_mod_cast x.mantissa_lt
    have hpow : (0 : ℚ) < 2 ^ x.scale := by positivity
    have hless : (2 : ℚ) ^ (-65 : ℤ) < 2 ^ (24 + x.scale) := by
      rw [zpow_add₀ two_ne_zero]
      exact hsize.trans (mul_lt_mul_of_pos_right hlt hpow)
    have hexp := (zpow_lt_zpow_iff_right₀ (one_lt_two (α := ℚ))).mp hless
    omega
  have hnormal : FloatFormat.single.least < x.scale := by
    change (-149 : ℤ) < x.scale
    omega
  have hlt : x.magnitude < 255 * 2 ^ 23 := by
    have hlt := hfinite
    rw [isFinite, decide_eq_true_eq] at hlt
    exact hlt
  have hdiv : x.magnitude / 2 ^ 23 < 255 := (Nat.div_lt_iff_lt_mul (by norm_num)).mpr hlt
  refine ⟨hnegative, le_mantissa hnormal, hscale, ?_⟩
  change (-149 : ℤ) + ((x.magnitude / 2 ^ 23 - 1 : ℕ) : ℤ) ≤ 104
  omega

/-- Accepted settings, by their fields. -/
structure Accepted (s : Settings) : Prop where
  rate : RateAccepted s.framerateLimit
  script : 0 ≤ s.scriptWorkerThreads
  physics : 0 ≤ s.physicsWorkerThreads
  interval : IntervalAccepted s.statsSummaryInterval

variable {s : Settings}

theorem accepted (h : s.problem? = none) : s.Accepted := by
  unfold problem? at h
  split_ifs at h with hsign hrate hscript hphysics hinterval
  rw [Bool.or_eq_true, not_or] at hsign
  obtain ⟨hfinite, hsign⟩ := hsign
  rw [Bool.not_eq_true', Bool.not_eq_false] at hinterval
  refine ⟨rateAccepted (by simpa using hfinite) hsign fun hpos => ?_, not_lt.mp hscript,
    not_lt.mp hphysics, intervalAccepted_iff.mp hinterval⟩
  rw [hpos, Bool.true_and, Option.isNone_iff_eq_none, ← ne_eq, ← Option.isSome_iff_ne_none] at hrate
  exact hrate

/-- The checks look at each field by itself. -/
theorem problem?_interval (h : s.problem? = none) {x : Double} (hx : IntervalAccepted x) :
    problem? { s with statsSummaryInterval := x } = none := by
  unfold problem? at h ⊢
  split_ifs at h with hsign hrate hscript hphysics hinterval
  dsimp only
  rw [if_neg hsign, if_neg hrate, if_neg hscript, if_neg hphysics, if_neg]
  rw [intervalAccepted_iff.mpr hx]
  decide

end Settings

end FrameLoop

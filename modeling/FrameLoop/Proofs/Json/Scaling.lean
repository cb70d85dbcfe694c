import FrameLoop.Json.Number
import FrameLoop.Proofs.Binary.Operations

/-! How far a number that was read is from the digits that were written. Each rounding adds a relative
error of half a last place, and where a result is too small for that, half of the least place. -/

namespace FrameLoop.Json

open Binary

/-- A number is near another, up to a relative and an absolute error. -/
def Within (r a y q : ℚ) : Prop := |y - q| ≤ r * q + a

namespace Within

variable {r a s b y q p x c : ℚ}

theorem mono (h : Within r a y q) (hq : 0 ≤ q) (hr : r ≤ s) (ha : a ≤ b) : Within s b y q := by
  have hrel := mul_le_mul_of_nonneg_right hr hq
  exact h.trans (add_le_add hrel ha)

theorem refl (y : ℚ) : Within 0 0 y y := by simp [Within]

theorem bounds (h : Within r a y q) : (1 - r) * q - a ≤ y ∧ y ≤ (1 + r) * q + a := by
  have habs := abs_le.mp h
  constructor <;> linarith

theorem pos (h : Within r 0 y q) (hr : r < 1) (hq : 0 < q) : 0 < y := by
  have hlow := h.bounds.1
  have hprod := mul_pos (sub_pos.mpr hr) hq
  linarith

theorem halves (h : Within r 0 y q) (hr : r ≤ 1 / 2) (hq : 0 ≤ q) : q / 2 ≤ y ∧ y ≤ 2 * q := by
  obtain ⟨hlow, hhigh⟩ := (h.mono hq hr le_rfl).bounds
  constructor <;> linarith

theorem trans (h : Within r a y q) (h' : Within s b q p) (hr : 0 ≤ r) :
    Within (r + s + r * s) (a + b + r * b) y p := by
  have hq := mul_le_mul_of_nonneg_left h'.bounds.2 hr
  unfold Within at *
  have hsplit : y - p = (y - q) + (q - p) := by ring
  rw [hsplit]
  have hsum := abs_add_le (y - q) (q - p)
  linarith

theorem mul (h : Within r 0 y q) (h' : Within s 0 x c) (hr : 0 ≤ r) (hq : 0 ≤ q) (hc : 0 ≤ c) :
    Within (r + s + r * s) 0 (y * x) (q * c) := by
  unfold Within at *
  have hsplit : y * x - q * c = (y - q) * (x - c) + (y - q) * c + q * (x - c) := by ring
  have hrq := mul_nonneg hr hq
  have hfirst : |(y - q) * (x - c)| ≤ (r * q) * (s * c) := by
    rw [abs_mul]
    exact mul_le_mul (by linarith) (by linarith) (abs_nonneg _) hrq
  have hsecond : |(y - q) * c| ≤ r * q * c := by
    rw [abs_mul, abs_of_nonneg hc]
    exact mul_le_mul_of_nonneg_right (by linarith) hc
  have hthird : |q * (x - c)| ≤ q * (s * c) := by
    rw [abs_mul, abs_of_nonneg hq]
    exact mul_le_mul_of_nonneg_left (by linarith) hq
  rw [hsplit]
  have hsum := abs_add_three ((y - q) * (x - c)) ((y - q) * c) (q * (x - c))
  linarith

theorem div (h : Within r a y q) (h' : Within s 0 x c) (ha : 0 ≤ a) (hr : 0 ≤ r) (hs : 0 ≤ s)
    (hs' : s < 1) (hq : 0 ≤ q) (hc : 0 < c) :
    Within ((r + s) / (1 - s)) (a / ((1 - s) * c)) (y / x) (q / c) := by
  have hx := h'.pos hs' hc
  have hlow : (1 - s) * c ≤ x := by linarith [h'.bounds.1]
  have hs1 : 0 < 1 - s := sub_pos.mpr hs'
  unfold Within at *
  have hsplit : y / x - q / c = ((y - q) * c - q * (x - c)) / (x * c) := by
    field_simp
    ring
  have hnum : |(y - q) * c - q * (x - c)| ≤ (r * q + a) * c + q * (s * c) := by
    have hleft : |(y - q) * c| ≤ (r * q + a) * c := by
      rw [abs_mul, abs_of_pos hc]
      exact mul_le_mul_of_nonneg_right h hc.le
    have hright : |q * (x - c)| ≤ q * (s * c) := by
      rw [abs_mul, abs_of_nonneg hq]
      exact mul_le_mul_of_nonneg_left (by linarith) hq
    have hsub := abs_sub ((y - q) * c) (q * (x - c))
    linarith
  have htop : 0 ≤ (r * q + a) * c + q * (s * c) := by positivity
  rw [hsplit, abs_div, abs_of_pos (mul_pos hx hc)]
  calc |(y - q) * c - q * (x - c)| / (x * c)
      ≤ ((r * q + a) * c + q * (s * c)) / (x * c) :=
        div_le_div_of_nonneg_right hnum (mul_pos hx hc).le
    _ ≤ ((r * q + a) * c + q * (s * c)) / ((1 - s) * c * c) :=
        div_le_div_of_nonneg_left htop (by positivity) (mul_le_mul_of_nonneg_right hlow hc.le)
    _ = (r + s) / (1 - s) * (q / c) + a / ((1 - s) * c) := by
        field_simp
        ring

end Within

theorem double_top : FloatFormat.double.top = 1023 := by decide +kernel

theorem within_of_rounds {y : Double} {q : ℚ} (h : y.Rounds q) (hq : 0 < q)
    (hfinite : y.isFinite = true) : Within (1 / 2 ^ 53) (2 ^ (-1075 : ℤ)) y.size q := by
  have hleast : (0 : ℚ) ≤ 2 ^ (-1075 : ℤ) := by positivity
  have hrel : (0 : ℚ) ≤ 1 / 2 ^ 53 * q := by positivity
  rcases h.near hq hfinite with hnear | ⟨-, hnear⟩
  · change |y.size - q| ≤ q / 2 ^ 53 at hnear
    unfold Within
    linarith
  · change |y.size - q| ≤ 2 ^ (-1075 : ℤ) at hnear
    unfold Within
    linarith

/-- Where a ratio is not too small, its error is relative. -/
theorem relative_of_rounds {y : Double} {q : ℚ} (h : y.Rounds q) (hq : 2 ^ (-1022 : ℤ) ≤ q)
    (hfinite : y.isFinite = true) : Within (1 / 2 ^ 53) 0 y.size q := by
  have hpos : (0 : ℚ) < 2 ^ (-1022 : ℤ) := by positivity
  rcases h.near (hpos.trans_le hq) hfinite with hnear | ⟨hsmall, -⟩
  · change |y.size - q| ≤ q / 2 ^ 53 at hnear
    unfold Within
    linarith
  · exact absurd hq (not_le.mpr hsmall)

theorem powerOfTen_isFinite {k : ℕ} (hk : k ≤ 308) : (powerOfTen k).isFinite = true := by
  have hall : ((List.range 309).all fun k => (powerOfTen k).isFinite) = true := by decide +kernel
  exact List.all_eq_true.mp hall k (List.mem_range.mpr (by omega))

theorem powerOfTen_rounds (k : ℕ) : (powerOfTen k).Rounds (10 ^ k) := by
  have h := ofNat_rounds (F := .double) (Nat.pow 10 k)
  rwa [Nat.pow_eq, Nat.cast_pow, Nat.cast_ofNat] at h

theorem powerOfTen_within {k : ℕ} (hk : k ≤ 308) :
    Within (1 / 2 ^ 53) 0 (powerOfTen k).size (10 ^ k) := by
  apply relative_of_rounds (powerOfTen_rounds k) _ (powerOfTen_isFinite hk)
  calc (2 : ℚ) ^ (-1022 : ℤ) ≤ 1 := zpow_le_one_of_nonpos₀ one_le_two (by norm_num)
    _ ≤ 10 ^ k := one_le_pow₀ (by norm_num)

/-- Ten to the twenty-second is the last power of ten that double precision has. -/
theorem powerOfTen_exact {k : ℕ} (hk : k ≤ 22) : (powerOfTen k).size = 10 ^ k := by
  have hsplit : (10 : ℚ) ^ k = ((5 ^ k : ℕ) : ℚ) * 2 ^ (k : ℤ) := by
    rw [zpow_natCast]
    push_cast
    rw [← mul_pow]
    norm_num
  have hrounds := powerOfTen_rounds k
  rw [hsplit] at hrounds ⊢
  apply hrounds.exact (powerOfTen_isFinite (by omega))
  · change (-1074 : ℤ) ≤ k
    omega
  · calc 5 ^ k ≤ 5 ^ 22 := Nat.pow_le_pow_right (by norm_num) hk
      _ < 2 ^ (52 + 1) := by norm_num
  · positivity

theorem powerOfTen_pos {k : ℕ} (hk : k ≤ 308) : 0 < (powerOfTen k).mantissa :=
  size_pos_iff.mp ((powerOfTen_within hk).pos (by norm_num) (by positivity))

variable {n : ℕ}

theorem ofNat_isFinite (hn : n < 2 ^ 64) : (ofNat n : Double).isFinite = true := by
  apply (ofNat_rounds n).isFinite (by decide)
  rw [double_top]
  calc (n : ℚ) < 2 ^ (64 : ℤ) := by exact_mod_cast hn
    _ < 2 ^ (1023 : ℤ) := zpow_lt_zpow_right₀ one_lt_two (by norm_num)

theorem ofNat_within (hpos : 0 < n) (hn : n < 2 ^ 64) :
    Within (1 / 2 ^ 53) 0 (ofNat n : Double).size n := by
  apply relative_of_rounds (ofNat_rounds n) _ (ofNat_isFinite hn)
  calc (2 : ℚ) ^ (-1022 : ℤ) ≤ 1 := zpow_le_one_of_nonpos₀ one_le_two (by norm_num)
    _ ≤ n := by exact_mod_cast hpos

theorem ofNat_exact (hpos : 0 < n) (hn : n < 2 ^ 53) : (ofNat n : Double).size = n := by
  have hrounds := ofNat_rounds (F := .double) n
  have hself : (n : ℚ) = n * 2 ^ (0 : ℤ) := by simp
  rw [hself] at hrounds ⊢
  exact hrounds.exact (ofNat_isFinite (hn.trans (by norm_num))) (by decide) hn hpos

section

variable {f : Double} {e : ℤ} (hf : f.isFinite = true)

include hf

theorem scaleByTen_mul (fuel : ℕ) (he : 0 ≤ e) (he' : e ≤ 308)
    (hlt : f.size * (powerOfTen e.natAbs).size < 2 ^ (1023 : ℤ)) :
    ∃ y, scaleByTen (fuel + 1) f e = some y ∧ y.isFinite = true ∧ y.negative = f.negative ∧
      y.Rounds (f.size * (powerOfTen e.natAbs).size) := by
  have hk : e.natAbs ≤ 308 := by omega
  obtain ⟨hsign, hrounds⟩ := mul_rounds hf (powerOfTen_isFinite hk)
  have hfinite := hrounds.isFinite (by decide) (double_top ▸ hlt)
  have hten : (powerOfTen e.natAbs).negative = false := rfl
  refine ⟨f * powerOfTen e.natAbs, ?_, hfinite, by simpa [hten] using hsign, hrounds⟩
  rw [scaleByTen, if_pos hk, if_pos he]
  simp [(not_special hfinite).2]

theorem scaleByTen_div (fuel : ℕ) (he : e < 0) (he' : -308 ≤ e)
    (hlt : f.size / (powerOfTen e.natAbs).size < 2 ^ (1023 : ℤ)) :
    ∃ y, scaleByTen (fuel + 1) f e = some y ∧ y.isFinite = true ∧ y.negative = f.negative ∧
      y.Rounds (f.size / (powerOfTen e.natAbs).size) := by
  have hk : e.natAbs ≤ 308 := by omega
  obtain ⟨hsign, hrounds⟩ := div_rounds hf (powerOfTen_isFinite hk) (powerOfTen_pos hk)
  have hfinite := hrounds.isFinite (by decide) (double_top ▸ hlt)
  have hten : (powerOfTen e.natAbs).negative = false := rfl
  refine ⟨f / powerOfTen e.natAbs, ?_, hfinite, by simpa [hten] using hsign, hrounds⟩
  rw [scaleByTen, if_pos hk, if_neg (by omega)]

end

/-- What is known of the number that is read for the digits `n * 10 ^ e`. -/
structure Reads (n : ℕ) (e : ℤ) (y : Double) : Prop where
  scaled : scaleByTen 5 (ofNat n) e = some y
  finite : y.isFinite = true
  positive : y.negative = false
  within : Within (1 / 2 ^ 50) (2 ^ (-1074 : ℤ)) y.size (n * 10 ^ e)
  relative : -308 ≤ e → (2 : ℚ) ^ (-1000 : ℤ) ≤ n * 10 ^ e →
    Within (if n < 2 ^ 53 then 1 / 2 ^ 51 else 1 / 2 ^ 50) 0 y.size (n * 10 ^ e)
  rounds : n < 2 ^ 53 → e.natAbs ≤ 22 → y.Rounds (n * 10 ^ e)

theorem reads_mul (hpos : 0 < n) (hn : n < 2 ^ 64) {e : ℤ} (he : 0 ≤ e) (he' : e ≤ 308)
    (hv : (n : ℚ) * 10 ^ e < 2 ^ (1000 : ℤ)) : ∃ y, Reads n e y := by
  have hk : e.natAbs ≤ 308 := by omega
  have hten : (10 : ℚ) ^ e = 10 ^ e.natAbs := by
    rw [← zpow_natCast, Int.natAbs_of_nonneg he]
  have hone : (1 : ℚ) ≤ 10 ^ e.natAbs := one_le_pow₀ (by norm_num)
  have hn' : (1 : ℚ) ≤ n := by exact_mod_cast hpos
  have hvalue : (1 : ℚ) ≤ n * 10 ^ e.natAbs := one_le_mul_of_one_le_of_one_le hn' hone
  rw [hten] at hv
  have hfactor := powerOfTen_within hk
  have hproduct {r : ℚ} (hr : 0 ≤ r) (h : Within r 0 (ofNat n : Double).size n) :=
    h.mul hfactor hr (by positivity) (by positivity)
  obtain ⟨hlower, hupper⟩ := (hproduct (by positivity) (ofNat_within hpos hn)).halves (by norm_num)
    (by positivity)
  have htop : (ofNat n : Double).size * (powerOfTen e.natAbs).size < 2 ^ (1023 : ℤ) := by
    have hpow : (2 : ℚ) * 2 ^ (1000 : ℤ) ≤ 2 ^ (1023 : ℤ) := by
      rw [← zpow_one_add₀ two_ne_zero]
      exact zpow_le_zpow_right₀ one_le_two (by norm_num)
    exact hupper.trans_lt ((mul_lt_mul_of_pos_left hv two_pos).trans_le hpow)
  have hlow : (2 : ℚ) ^ (-1022 : ℤ) ≤ (ofNat n : Double).size * (powerOfTen e.natAbs).size := by
    have hhalf : (2 : ℚ) ^ (-1022 : ℤ) ≤ 2 ^ (-1 : ℤ) := zpow_le_zpow_right₀ one_le_two (by norm_num)
    rw [zpow_neg_one] at hhalf
    linarith
  obtain ⟨y, hscaled, hfinite, hsign, hrounds⟩ := scaleByTen_mul (ofNat_isFinite hn) 4 he he' htop
  have herror {r s : ℚ} (hr : 0 ≤ r) (h : Within r 0 (ofNat n : Double).size n)
      (hs : 1 / 2 ^ 53 + (r + 1 / 2 ^ 53 + r * (1 / 2 ^ 53)) +
        1 / 2 ^ 53 * (r + 1 / 2 ^ 53 + r * (1 / 2 ^ 53)) ≤ s) :
      Within s 0 y.size (n * 10 ^ e.natAbs) := by
    have hrelative := relative_of_rounds hrounds hlow hfinite
    exact (hrelative.trans (hproduct hr h) (by positivity)).mono (by positivity) hs (by norm_num)
  have hall : Within (1 / 2 ^ 50) 0 y.size (n * 10 ^ e.natAbs) :=
    herror (by positivity) (ofNat_within hpos hn) (by norm_num)
  refine ⟨y, hscaled, hfinite, hsign, ?_, fun _ _ => ?_, fun hsmall hexp => ?_⟩
  · rw [hten]
    exact hall.mono (by positivity) le_rfl (by positivity)
  · rw [hten]
    split_ifs with hsmall
    · have hexact := Within.refl (n : ℚ)
      rw [← ofNat_exact hpos hsmall] at hexact
      exact herror le_rfl (by rwa [ofNat_exact hpos hsmall] at hexact ⊢) (by norm_num)
    · exact hall
  · rwa [ofNat_exact hpos hsmall, powerOfTen_exact hexp, ← hten] at hrounds

theorem reads_div (hpos : 0 < n) (hn : n < 2 ^ 64) {e : ℤ} (he : e < 0) (he' : -308 ≤ e) :
    ∃ y, Reads n e y := by
  have hk : e.natAbs ≤ 308 := by omega
  have hten : (n : ℚ) * 10 ^ e = n / 10 ^ e.natAbs := by
    have hneg : e = -(e.natAbs : ℤ) := by omega
    conv_lhs => rw [hneg, zpow_neg, zpow_natCast]
    rfl
  have hone : (1 : ℚ) ≤ 10 ^ e.natAbs := one_le_pow₀ (by norm_num)
  have hn' : (1 : ℚ) ≤ n := by exact_mod_cast hpos
  have hn64 : (n : ℚ) < 2 ^ 64 := by exact_mod_cast hn
  have hvalue : (0 : ℚ) < n / 10 ^ e.natAbs := by positivity
  have hfactor := powerOfTen_within hk
  have hquotient {r : ℚ} (hr : 0 ≤ r) (h : Within r 0 (ofNat n : Double).size n) :=
    (h.div hfactor le_rfl hr (by positivity) (by norm_num) (by positivity) (by positivity)).mono
      hvalue.le le_rfl (by rw [zero_div])
  obtain ⟨hlower, hupper⟩ := (hquotient (by positivity) (ofNat_within hpos hn)).halves (by norm_num)
    hvalue.le
  have hqpos : 0 < (ofNat n : Double).size / (powerOfTen e.natAbs).size := by linarith
  have htop : (ofNat n : Double).size / (powerOfTen e.natAbs).size < 2 ^ (1023 : ℤ) := by
    have hle : (n : ℚ) / 10 ^ e.natAbs ≤ n := div_le_self (by positivity) hone
    have hpow : (2 : ℚ) ^ (65 : ℤ) ≤ 2 ^ (1023 : ℤ) := zpow_le_zpow_right₀ one_le_two (by norm_num)
    have hdouble : (2 : ℚ) ^ (65 : ℤ) = 2 * 2 ^ 64 := by norm_num
    refine lt_of_lt_of_le ?_ hpow
    linarith
  obtain ⟨y, hscaled, hfinite, hsign, hrounds⟩ := scaleByTen_div (ofNat_isFinite hn) 4 he he' htop
  have hwithin := (within_of_rounds hrounds hqpos hfinite).trans
    (hquotient (by positivity) (ofNat_within hpos hn)) (by positivity)
  -- a quotient may fall below the normal numbers, so the relative bound needs a large one
  have herror {r s : ℚ} (hr : 0 ≤ r) (h : Within r 0 (ofNat n : Double).size n)
      (hlarge : (2 : ℚ) ^ (-1000 : ℤ) ≤ n / 10 ^ e.natAbs)
      (hs : 1 / 2 ^ 53 + (r + 1 / 2 ^ 53) / (1 - 1 / 2 ^ 53) +
        1 / 2 ^ 53 * ((r + 1 / 2 ^ 53) / (1 - 1 / 2 ^ 53)) ≤ s) :
      Within s 0 y.size (n / 10 ^ e.natAbs) := by
    have hlow : (2 : ℚ) ^ (-1022 : ℤ) ≤ (ofNat n : Double).size / (powerOfTen e.natAbs).size := by
      have hstep : (2 : ℚ) ^ (-1022 : ℤ) = 2 ^ (-22 : ℤ) * 2 ^ (-1000 : ℤ) := by
        rw [← zpow_add₀ two_ne_zero]
        norm_num
      have hpow : (2 : ℚ) ^ (-22 : ℤ) ≤ 1 / 2 := by norm_num
      have hsmall := mul_le_mul_of_nonneg_right hpow (zpow_nonneg (zero_le_two (α := ℚ)) (-1000))
      rw [hstep]
      linarith
    have hrelative := relative_of_rounds hrounds hlow hfinite
    exact (hrelative.trans (hquotient hr h) (by positivity)).mono hvalue.le hs (by norm_num)
  refine ⟨y, hscaled, hfinite, hsign, ?_, fun _ hlarge => ?_, fun hsmall hexp => ?_⟩
  · rw [hten]
    refine hwithin.mono hvalue.le (by norm_num) ?_
    rw [add_zero, mul_zero, add_zero]
    exact zpow_le_zpow_right₀ one_le_two (by norm_num)
  · rw [hten] at hlarge ⊢
    split_ifs with hsmall
    · have hexact := Within.refl (n : ℚ)
      exact herror le_rfl (by rwa [ofNat_exact hpos hsmall]) hlarge (by norm_num)
    · exact herror (by positivity) (ofNat_within hpos hn) hlarge (by norm_num)
  · rw [hten]
    rwa [ofNat_exact hpos hsmall, powerOfTen_exact hexp] at hrounds

theorem double_pow_lt {q : ℚ} (h : q < 2 ^ 66) : q < 2 ^ (1023 : ℤ) := by
  have hpow : (2 : ℚ) ^ (66 : ℤ) ≤ 2 ^ (1023 : ℤ) := zpow_le_zpow_right₀ one_le_two (by norm_num)
  exact h.trans_le hpow

/-- What is left after the first of two divisions. -/
structure Divided (n : ℕ) (e : ℤ) (first : Double) : Prop where
  scaled : scaleByTen 5 (ofNat n) e = scaleByTen 4 first (e + 308)
  finite : first.isFinite = true
  positive : first.negative = false
  within : Within (1 / 2 ^ 51) (2 ^ (-1075 : ℤ)) first.size (n / 10 ^ 308)

theorem exists_divided (hpos : 0 < n) (hn : n < 2 ^ 64) {e : ℤ} (he : e < -308) :
    ∃ first, Divided n e first := by
  have hn64 : (n : ℚ) < 2 ^ 64 := by exact_mod_cast hn
  have hvalue : (0 : ℚ) < n / 10 ^ 308 := by positivity
  have hle : (n : ℚ) / 10 ^ 308 ≤ n := div_le_self (by positivity) (one_le_pow₀ (by norm_num))
  have hquotient := ((ofNat_within hpos hn).div (powerOfTen_within le_rfl) le_rfl (by positivity)
    (by positivity) (by norm_num) (by positivity) (by positivity)).mono hvalue.le le_rfl
    (zero_div _).le
  obtain ⟨hlower, hupper⟩ := hquotient.halves (by norm_num) hvalue.le
  obtain ⟨hsign, hrounds⟩ := div_rounds (ofNat_isFinite hn) (powerOfTen_isFinite le_rfl)
    (powerOfTen_pos le_rfl)
  have htop : (ofNat n : Double).size / (powerOfTen 308).size < 2 ^ (1023 : ℤ) := by
    have hdouble : 2 * (n : ℚ) < 2 ^ 66 := by linarith
    exact double_pow_lt ((hupper.trans (mul_le_mul_of_nonneg_left hle zero_le_two)).trans_lt hdouble)
  have hfinite := hrounds.isFinite (by decide) (double_top ▸ htop)
  refine ⟨ofNat n / powerOfTen 308, ?_, hfinite, hsign, ?_⟩
  · have hzero : (ofNat n : Double).isZero = false := by
      have hsize := (ofNat_within hpos hn).pos (by norm_num) (by positivity)
      have hmag := mantissa_pos_iff.mp (size_pos_iff.mp hsize)
      simp only [isZero, beq_eq_false_iff_ne]
      omega
    rw [scaleByTen, if_neg (by omega), hzero, if_neg (by decide), if_neg (by omega)]
  · have hleast : (0 : ℚ) < 2 ^ (-1075 : ℤ) := by positivity
    have hpos' := (half_pos hvalue).trans_le hlower
    have hwithin := (within_of_rounds hrounds hpos' hfinite).trans hquotient (by positivity)
    exact hwithin.mono hvalue.le (by norm_num) (by linarith)

theorem Divided.pos {e : ℤ} {first : Double} (h : Divided n e first) (hpos : 0 < n) :
    0 < first.size := by
  have hlow := h.within.bounds.1
  have hn : (1 : ℚ) ≤ n := by exact_mod_cast hpos
  have hvalue : (0 : ℚ) < n / 10 ^ 308 := by positivity
  have hten : (2 : ℚ) ^ (-1075 : ℤ) ≤ 1 / 2 * (1 / 10 ^ 308) := by
    have hwhole : 2 * 10 ^ 308 ≤ 2 ^ 1075 := by decide +kernel
    have hwhole' : (2 : ℚ) * 10 ^ 308 ≤ 2 ^ 1075 := by exact_mod_cast hwhole
    rw [zpow_neg, ← one_div, one_div_mul_one_div]
    exact one_div_le_one_div_of_le (by positivity) hwhole'
  have hmin : (1 : ℚ) / 10 ^ 308 ≤ n / 10 ^ 308 :=
    div_le_div_of_nonneg_right hn (by positivity)
  refine (sub_pos.mpr ?_).trans_le hlow
  calc (2 : ℚ) ^ (-1075 : ℤ) ≤ 1 / 2 * (1 / 10 ^ 308) := hten
    _ ≤ 1 / 2 * (n / 10 ^ 308) := mul_le_mul_of_nonneg_left hmin (by norm_num)
    _ < (1 - 1 / 2 ^ 51) * (n / 10 ^ 308) := mul_lt_mul_of_pos_right (by norm_num) hvalue

/-- Powers of ten that double precision does not have are divided by in two steps. -/
theorem reads_far (hpos : 0 < n) (hn : n < 2 ^ 64) {e : ℤ} (he : e < -308) (he' : -616 ≤ e) :
    ∃ y, Reads n e y := by
  obtain ⟨first, hfirst⟩ := exists_divided hpos hn he
  have hk : (e + 308).natAbs ≤ 308 := by omega
  have hleast : (0 : ℚ) < 2 ^ (-1075 : ℤ) := by positivity
  have hvalue : (0 : ℚ) < n / 10 ^ 308 := by positivity
  have hten : (n : ℚ) * 10 ^ e = n / 10 ^ 308 / 10 ^ (e + 308).natAbs := by
    have hneg : e = -(308 : ℤ) + -((e + 308).natAbs : ℤ) := by omega
    conv_lhs => rw [hneg, zpow_add₀ (by norm_num), zpow_neg, zpow_neg, zpow_natCast]
    rw [div_eq_mul_inv, div_eq_mul_inv, mul_assoc]
    rfl
  have hstep : (10 : ℚ) ≤ 10 ^ (e + 308).natAbs := le_self_pow₀ (by norm_num) (by omega)
  have hpower : (2 : ℚ) ≤ (1 - 1 / 2 ^ 53) * 10 ^ (e + 308).natAbs := by
    norm_num at hstep ⊢
    linarith
  have hquotient := hfirst.within.div (powerOfTen_within hk) hleast.le (by positivity)
    (by positivity) (by norm_num) hvalue.le (by positivity)
  rw [← hten] at hquotient
  have hv : (0 : ℚ) < n * 10 ^ e := by positivity
  have hspread : (2 : ℚ) ^ (-1075 : ℤ) / ((1 - 1 / 2 ^ 53) * 10 ^ (e + 308).natAbs) ≤
      2 ^ (-1075 : ℤ) / 2 := div_le_div_of_nonneg_left hleast.le (by norm_num) hpower
  have hqpos : 0 < first.size / (powerOfTen (e + 308).natAbs).size :=
    div_pos (hfirst.pos hpos) ((powerOfTen_within hk).pos (by norm_num) (by positivity))
  have htop : first.size / (powerOfTen (e + 308).natAbs).size < 2 ^ (1023 : ℤ) := by
    have hn64 : (n : ℚ) < 2 ^ 64 := by exact_mod_cast hn
    have hle : (n : ℚ) * 10 ^ e ≤ n :=
      mul_le_of_le_one_right (by positivity) (zpow_le_one_of_nonpos₀ (by norm_num) (by omega))
    have hupper := hquotient.bounds.2
    have hleast1 : (2 : ℚ) ^ (-1075 : ℤ) ≤ 1 := zpow_le_one_of_nonpos₀ one_le_two (by norm_num)
    have hr : 1 + (1 / 2 ^ 51 + 1 / 2 ^ 53) / (1 - 1 / 2 ^ 53) ≤ (2 : ℚ) := by norm_num
    have hprod := mul_le_mul_of_nonneg_right hr hv.le
    apply double_pow_lt
    linarith only [hupper, hprod, hspread, hleast1, hle, hn64]
  obtain ⟨y, hscaled, hfinite, hsign, hrounds⟩ :=
    scaleByTen_div hfirst.finite 3 (by omega : e + 308 < 0) (by omega) htop
  have hwithin := (within_of_rounds hrounds hqpos hfinite).trans hquotient (by positivity)
  refine ⟨y, hfirst.scaled.trans hscaled, hfinite, hsign.trans hfirst.positive, ?_, fun h _ => ?_,
    fun _ h => ?_⟩
  · refine hwithin.mono hv.le (by norm_num) ?_
    have hdouble : (2 : ℚ) ^ (-1074 : ℤ) = 2 * 2 ^ (-1075 : ℤ) := by
      rw [← zpow_one_add₀ two_ne_zero]
      norm_num
    rw [hdouble]
    have hsmall := mul_le_mul_of_nonneg_left hspread (by norm_num : (0 : ℚ) ≤ 1 / 2 ^ 53)
    linarith
  · omega
  · omega

theorem exists_reads (hpos : 0 < n) (hn : n < 2 ^ 64) {e : ℤ} (hlow : -616 ≤ e) (hhigh : e ≤ 308)
    (hv : (n : ℚ) * 10 ^ e < 2 ^ (1000 : ℤ)) : ∃ y, Reads n e y := by
  rcases le_or_gt 0 e with hup | hdown
  · exact reads_mul hpos hn hup hhigh hv
  · rcases le_or_gt (-308) e with hnear | hfar
    · exact reads_div hpos hn hdown hnear
    · exact reads_far hpos hn hfar hlow

end FrameLoop.Json

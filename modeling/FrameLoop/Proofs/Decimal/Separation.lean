import Mathlib.Algebra.Order.Field.Power
import Mathlib.Algebra.Order.Field.Rat
import Mathlib.Tactic.FieldSimp
import Mathlib.Tactic.Linarith
import Mathlib.Tactic.LinearCombination
import Mathlib.Tactic.NormNum
import Mathlib.Tactic.Positivity
import Mathlib.Tactic.Ring

/-! How near a decimal with few digits can be to a binary number with few places. Two neighbouring
fractions around the ratio of the units bound the distance of all others from it, so one pair of them
for each two powers decides the question for every pair of digits. -/

namespace FrameLoop.Decimal

/-- Two fractions `low / lowBy` and `high / highBy`. -/
structure Neighbours where
  lowBy : ℕ
  low : ℕ
  highBy : ℕ
  high : ℕ

/-- Approaches a ratio of which the first fraction misses `under` and the second one `beyond`, until no
fraction between them has a denominator up to the limit. -/
def approach (limit : ℕ) : ℕ → ℕ → ℕ → Neighbours → Neighbours
  | 0, _, _, s => s
  | fuel + 1, under, beyond, s =>
    if limit < s.lowBy + s.highBy ∨ under = 0 ∨ beyond = 0 then s
    else if beyond ≤ under then
      let times := under / beyond
      approach limit fuel (under - times * beyond) beyond
        { s with lowBy := s.lowBy + times * s.highBy, low := s.low + times * s.high }
    else
      let times := beyond / under
      approach limit fuel under (beyond - times * under)
        { s with highBy := s.highBy + times * s.lowBy, high := s.high + times * s.low }

/-- A combination of two errors that lie on either side of the ratio adds them up. -/
theorem le_abs_of_opposite {under beyond i j : ℤ} (hunder : 0 ≤ under) (hbeyond : 0 ≤ beyond)
    (h : i < 0 ∧ 0 < j ∨ 0 < i ∧ j < 0) : under + beyond ≤ |i * under - j * beyond| := by
  rcases h with ⟨hi, hj⟩ | ⟨hi, hj⟩
  · have hleft : i * under ≤ -1 * under := mul_le_mul_of_nonneg_right (by omega) hunder
    have hright : 1 * beyond ≤ j * beyond := mul_le_mul_of_nonneg_right (by omega) hbeyond
    rw [abs_of_nonpos (by linarith)]
    linarith
  · have hleft : 1 * under ≤ i * under := mul_le_mul_of_nonneg_right (by omega) hunder
    have hright : j * beyond ≤ -1 * beyond := mul_le_mul_of_nonneg_right (by omega) hbeyond
    rw [abs_of_nonneg (by linarith)]
    linarith

/-- Between neighbours a ratio `a / b` is missed by each further fraction at least by both their
errors. -/
theorem Neighbours.apart {s : Neighbours} {a b limit : ℤ}
    (hunit : (s.lowBy : ℤ) * s.high = s.low * s.highBy + 1) (hlow : 0 ≤ s.lowBy * a - s.low * b)
    (hhigh : 0 ≤ s.high * b - s.highBy * a)
    (hlimit : limit < s.lowBy + s.highBy ∨ (s.lowBy : ℤ) * a - s.low * b = 0 ∨
      (s.high : ℤ) * b - s.highBy * a = 0)
    {c n : ℤ} (hc : 0 < c) (hc' : c ≤ limit) :
    (∃ k : ℤ, 0 < k ∧ c = k * s.lowBy ∧ n = k * s.low) ∨
      (∃ k : ℤ, 0 < k ∧ c = k * s.highBy ∧ n = k * s.high) ∨
      (s.lowBy * a - s.low * b) + (s.high * b - s.highBy * a) ≤ |c * a - n * b| := by
  -- every fraction is a combination of the two with whole coefficients
  obtain ⟨i, hi⟩ : ∃ i, i = c * s.high - n * s.highBy := ⟨_, rfl⟩
  obtain ⟨j, hj⟩ : ∃ j, j = n * s.lowBy - c * s.low := ⟨_, rfl⟩
  have hcsum : c = i * s.lowBy + j * s.highBy := by
    rw [hi, hj]
    linear_combination c * (-hunit)
  have hnsum : n = i * s.low + j * s.high := by
    rw [hi, hj]
    linear_combination n * (-hunit)
  have hdist : c * a - n * b =
      i * (s.lowBy * a - s.low * b) - j * (s.high * b - s.highBy * a) := by
    rw [hcsum, hnsum]
    ring
  have hlowBy : (0 : ℤ) ≤ s.lowBy := Int.natCast_nonneg _
  have hhighBy : (0 : ℤ) ≤ s.highBy := Int.natCast_nonneg _
  rw [hdist]
  generalize (s.lowBy : ℤ) * a - s.low * b = under at *
  generalize (s.high : ℤ) * b - s.highBy * a = beyond at *
  rcases lt_trichotomy i 0 with hi0 | rfl | hi0
  · rcases lt_or_ge 0 j with hj0 | hj0
    · exact Or.inr (Or.inr (le_abs_of_opposite hlow hhigh (Or.inl ⟨hi0, hj0⟩)))
    · have hleft := mul_nonpos_of_nonpos_of_nonneg hi0.le hlowBy
      have hright := mul_nonpos_of_nonpos_of_nonneg hj0 hhighBy
      omega
  · right; left
    rw [zero_mul, zero_add] at hcsum hnsum
    exact ⟨j, pos_of_mul_pos_left (hcsum ▸ hc) hhighBy, hcsum, hnsum⟩
  · rcases lt_trichotomy j 0 with hj0 | rfl | hj0
    · exact Or.inr (Or.inr (le_abs_of_opposite hlow hhigh (Or.inr ⟨hi0, hj0⟩)))
    · left
      rw [zero_mul, add_zero] at hcsum hnsum
      exact ⟨i, hi0, hcsum, hnsum⟩
    · right; right
      rcases hlimit with hl | rfl | rfl
      · have hleft := le_mul_of_one_le_left hlowBy hi0
        have hright := le_mul_of_one_le_left hhighBy hj0
        omega
      · have hright := le_mul_of_one_le_left hhigh hj0
        rw [mul_zero, zero_sub, abs_neg, abs_of_nonneg (hhigh.trans hright), zero_add]
        exact hright
      · have hleft := le_mul_of_one_le_left hlow hi0
        rw [mul_zero, sub_zero, abs_of_nonneg (hlow.trans hleft), add_zero]
        exact hleft

/-- The relative distance `1 / sharpness` that is kept. Up to the last power of ten that double
precision has, a decimal may also be the binary number itself. -/
def sharpness (k : ℤ) : ℕ := if k.natAbs ≤ 22 then 2 ^ 53 else 2 ^ 51

/-- The most digits for which the distance is kept. -/
def fewDigits : ℕ := 17000000

/-- Whether multiples of one fraction, which misses the ratio by `error / b`, keep their distance. -/
def clears (k : ℤ) (limit a by_ num error : ℕ) : Bool :=
  decide (by_ * a < sharpness k * error ∨ (error = 0 ∧ (k.natAbs ≤ 22 ∨ 2 ^ 25 ≤ num)) ∨ limit < by_)

/-- Whether decimals `c * 10 ^ k` keep their distance from binary numbers `n * 2 ^ t` of 25 places. -/
def keepsApart (k t : ℤ) : Bool :=
  let a := 10 ^ k.toNat * 2 ^ (-t).toNat
  let b := 10 ^ (-k).toNat * 2 ^ t.toNat
  let limit := min fewDigits (2 ^ 25 * b / a)
  if 2 ^ 25 * b < a ∨ 18000000 * a < (2 ^ 23 - 1) * b then true
  else
    let s := approach limit 60 a b ⟨1, 0, 0, 1⟩
    let under := s.lowBy * a - s.low * b
    let beyond := s.high * b - s.highBy * a
    decide (s.lowBy * s.high = s.low * s.highBy + 1 ∧ s.low * b ≤ s.lowBy * a ∧
      s.highBy * a ≤ s.high * b ∧ (limit < s.lowBy + s.highBy ∨ under = 0 ∨ beyond = 0) ∧
      limit * a < sharpness k * (under + beyond)) &&
      clears k limit a s.lowBy s.low under && clears k limit a s.highBy s.high beyond

/-- The powers of ten and of two that accepted single precision numbers have to do with. -/
theorem keepsApart_all : ((List.range 67).all fun i => (List.range 194).all fun j =>
    keepsApart ((i : ℤ) - 28) ((j : ℤ) - 90)) = true := by decide +kernel

theorem keepsApart_of_range {k t : ℤ} (hk : -28 ≤ k) (hk' : k ≤ 38) (ht : -90 ≤ t) (ht' : t ≤ 103) :
    keepsApart k t = true := by
  have hrow := List.all_eq_true.mp keepsApart_all (k + 28).toNat (List.mem_range.mpr (by omega))
  have hcell := List.all_eq_true.mp hrow (t + 90).toNat (List.mem_range.mpr (by omega))
  rwa [Int.toNat_of_nonneg (by omega), Int.toNat_of_nonneg (by omega), add_sub_cancel_right,
    add_sub_cancel_right] at hcell

theorem sharpness_pos (k : ℤ) : 2 ^ 51 ≤ sharpness k := by
  unfold sharpness
  split_ifs <;> norm_num

/-- Multiples of a fraction that clears the ratio. -/
theorem clears_spec {k : ℤ} {limit a b by_ num error c n j : ℕ}
    (h : clears k limit a by_ num error = true) (hj : 0 < j) (hc : c = j * by_) (hn : n = j * num)
    (hc' : c ≤ limit) (hn' : n < 2 ^ 25)
    (herror : |(c : ℤ) * a - n * b| = j * error)
    (hnear : sharpness k * |(c : ℤ) * a - n * b| ≤ c * a) :
    k.natAbs ≤ 22 ∧ (c : ℤ) * a = n * b := by
  simp only [clears, decide_eq_true_eq] at h
  rcases h with hfar | ⟨hzero, hexact⟩ | hlarge
  · have hprod : j * (by_ * a) < j * (sharpness k * error) := Nat.mul_lt_mul_of_pos_left hfar hj
    have hprod' : ((j * (by_ * a) : ℕ) : ℤ) < (j * (sharpness k * error) : ℕ) := by
      exact_mod_cast hprod
    rw [herror, hc] at hnear
    push_cast at hprod' hnear
    linarith
  · refine ⟨hexact.resolve_right fun hnum => ?_, ?_⟩
    · have hle : num ≤ n := hn ▸ Nat.le_mul_of_pos_left num hj
      omega
    · rw [hzero, Nat.cast_zero, mul_zero, abs_eq_zero] at herror
      exact sub_eq_zero.mp herror
  · have hle : by_ ≤ c := hc ▸ Nat.le_mul_of_pos_left by_ hj
    omega

/-- Products that are near each other have factors of like size. -/
theorem sizes_of_near {a b c n : ℕ} (hc : 0 < c) (hc' : c ≤ fewDigits) (hn : 2 ^ 23 - 1 ≤ n)
    (hn' : n < 2 ^ 25) (hnear : 2 ^ 51 * |(c : ℤ) * a - n * b| ≤ c * a) (hb : 0 < b) :
    c * a ≤ 2 ^ 25 * b ∧ a ≤ 2 ^ 25 * b ∧ (2 ^ 23 - 1) * b ≤ 18000000 * a := by
  obtain ⟨hdown, hup⟩ := abs_le.mp (le_refl |(c : ℤ) * a - n * b|)
  have hnb : (2 ^ 23 - 1) * (b : ℤ) ≤ n * b :=
    mul_le_mul_of_nonneg_right (by omega) (Int.natCast_nonneg _)
  have hnb' : (n : ℤ) * b ≤ (2 ^ 25 - 1) * b :=
    mul_le_mul_of_nonneg_right (by omega) (Int.natCast_nonneg _)
  have hca : (a : ℤ) ≤ c * a := le_mul_of_one_le_left (Int.natCast_nonneg _) (by omega)
  have hca' : (c : ℤ) * a ≤ 17000000 * a :=
    mul_le_mul_of_nonneg_right (by exact_mod_cast hc') (Int.natCast_nonneg _)
  have hsmall : (c : ℤ) * a ≤ 2 ^ 25 * b := by omega
  exact ⟨by exact_mod_cast hsmall, by omega, by omega⟩

/-- Decimals and binary numbers that keep their distance, in whole numbers. -/
theorem keepsApart_spec {k t : ℤ} (h : keepsApart k t = true) {c n : ℕ} (hc : 0 < c)
    (hc' : c ≤ fewDigits) (hn : 2 ^ 23 - 1 ≤ n) (hn' : n < 2 ^ 25) {a b : ℕ}
    (ha : a = 10 ^ k.toNat * 2 ^ (-t).toNat) (hb : b = 10 ^ (-k).toNat * 2 ^ t.toNat)
    (hnear : sharpness k * |(c : ℤ) * a - n * b| ≤ c * a) :
    k.natAbs ≤ 22 ∧ (c : ℤ) * a = n * b := by
  have hapos : 0 < a := by
    rw [ha]
    positivity
  have hbpos : 0 < b := by
    rw [hb]
    positivity
  have hsharp : (2 ^ 51 : ℤ) ≤ sharpness k := by exact_mod_cast sharpness_pos k
  obtain ⟨hsmall, hskip, hskip'⟩ := sizes_of_near hc hc' hn hn'
    ((mul_le_mul_of_nonneg_right hsharp (abs_nonneg _)).trans hnear) hbpos
  unfold keepsApart at h
  rw [← ha, ← hb] at h
  dsimp only at h
  rw [if_neg (by omega)] at h
  have hlimit : c ≤ min fewDigits (2 ^ 25 * b / a) :=
    le_min hc' ((Nat.le_div_iff_mul_le hapos).mpr hsmall)
  generalize approach (min fewDigits (2 ^ 25 * b / a)) 60 a b ⟨1, 0, 0, 1⟩ = s at h
  generalize min fewDigits (2 ^ 25 * b / a) = limit at h hlimit
  rw [Bool.and_eq_true, Bool.and_eq_true, decide_eq_true_eq] at h
  obtain ⟨⟨⟨hunit, hlow, hhigh, hlast, hgap⟩, hclearLow⟩, hclearHigh⟩ := h
  have hunder : ((s.lowBy * a - s.low * b : ℕ) : ℤ) = s.lowBy * a - s.low * b := by
    rw [Nat.cast_sub hlow]
    push_cast
    rfl
  have hbeyond : ((s.high * b - s.highBy * a : ℕ) : ℤ) = s.high * b - s.highBy * a := by
    rw [Nat.cast_sub hhigh]
    push_cast
    rfl
  generalize s.lowBy * a - s.low * b = under at *
  generalize s.high * b - s.highBy * a = beyond at *
  have hcases := Neighbours.apart (s := s) (a := a) (b := b)
    (by exact_mod_cast hunit) (hunder ▸ Int.natCast_nonneg _) (hbeyond ▸ Int.natCast_nonneg _)
    (by rw [← hunder, ← hbeyond]; exact_mod_cast hlast) (c := c) (n := n) (by exact_mod_cast hc)
    (by exact_mod_cast hlimit : (c : ℤ) ≤ limit)
  rw [← hunder, ← hbeyond] at hcases
  rcases hcases with ⟨j, hj, hcj, hnj⟩ | ⟨j, hj, hcj, hnj⟩ | hfar
  · obtain ⟨m, rfl⟩ := Int.eq_ofNat_of_zero_le hj.le
    have herror : |(c : ℤ) * a - n * b| = m * under := by
      have hsplit : (c : ℤ) * a - n * b = m * under := by
        rw [hcj, hnj, hunder]
        ring
      rw [hsplit]
      exact abs_of_nonneg (by positivity)
    exact clears_spec hclearLow (by exact_mod_cast hj) (by exact_mod_cast hcj)
      (by exact_mod_cast hnj) hlimit hn' herror hnear
  · obtain ⟨m, rfl⟩ := Int.eq_ofNat_of_zero_le hj.le
    have herror : |(c : ℤ) * a - n * b| = m * beyond := by
      have hsplit : (c : ℤ) * a - n * b = -(m * beyond) := by
        rw [hcj, hnj, hbeyond]
        ring
      rw [hsplit, abs_neg]
      exact abs_of_nonneg (by positivity)
    exact clears_spec hclearHigh (by exact_mod_cast hj) (by exact_mod_cast hcj)
      (by exact_mod_cast hnj) hlimit hn' herror hnear
  · exfalso
    have hgap' : (limit : ℤ) * a < sharpness k * (under + beyond) := by exact_mod_cast hgap
    have hlimit' : (c : ℤ) * a ≤ limit * a :=
      mul_le_mul_of_nonneg_right (by exact_mod_cast hlimit) (Int.natCast_nonneg _)
    have hfar' := mul_le_mul_of_nonneg_left hfar (Int.natCast_nonneg (sharpness k))
    linarith

/-- Decimals with few digits keep their distance from binary numbers. -/
theorem separated {k t : ℤ} (h : keepsApart k t = true) {c n : ℕ} (hc : 0 < c) (hc' : c ≤ fewDigits)
    (hn : 2 ^ 23 - 1 ≤ n) (hn' : n < 2 ^ 25)
    (hnear : |(c : ℚ) * 10 ^ k - n * 2 ^ t| ≤ 1 / sharpness k * (c * 10 ^ k)) :
    k.natAbs ≤ 22 ∧ (c : ℚ) * 10 ^ k = n * 2 ^ t := by
  obtain ⟨a, ha⟩ : ∃ a : ℕ, a = 10 ^ k.toNat * 2 ^ (-t).toNat := ⟨_, rfl⟩
  obtain ⟨b, hb⟩ : ∃ b : ℕ, b = 10 ^ (-k).toNat * 2 ^ t.toNat := ⟨_, rfl⟩
  have hsplit {p : ℚ} (hp : p ≠ 0) (z : ℤ) : p ^ z * p ^ (-z).toNat = p ^ z.toNat := by
    rw [← zpow_natCast, ← zpow_natCast, ← zpow_add₀ hp]
    congr 1
    omega
  have hten := hsplit (p := 10) (by norm_num) k
  have htwo := hsplit (p := 2) (by norm_num) t
  obtain ⟨w, hw⟩ : ∃ w : ℚ, w = 10 ^ (-k).toNat * 2 ^ (-t).toNat := ⟨_, rfl⟩
  have hwpos : 0 < w := by
    rw [hw]
    positivity
  have hca : (c : ℚ) * 10 ^ k * w = ((c * a : ℤ) : ℚ) := by
    rw [hw, ha]
    push_cast
    rw [← hten]
    ring
  have hnb : (n : ℚ) * 2 ^ t * w = ((n * b : ℤ) : ℚ) := by
    rw [hw, hb]
    push_cast
    rw [← htwo]
    ring
  have hsharp : (0 : ℚ) < sharpness k := by
    have hpos : 0 < sharpness k := lt_of_lt_of_le (by norm_num) (sharpness_pos k)
    exact_mod_cast hpos
  have hwhole : (sharpness k : ℤ) * |(c : ℤ) * a - n * b| ≤ c * a := by
    have hq : (sharpness k : ℚ) * |((c * a : ℤ) : ℚ) - ((n * b : ℤ) : ℚ)| ≤ ((c * a : ℤ) : ℚ) := by
      rw [← hca, ← hnb, ← sub_mul, abs_mul, abs_of_pos hwpos, ← mul_assoc]
      apply mul_le_mul_of_nonneg_right _ hwpos.le
      calc (sharpness k : ℚ) * |(c : ℚ) * 10 ^ k - n * 2 ^ t|
          ≤ sharpness k * (1 / sharpness k * (c * 10 ^ k)) := mul_le_mul_of_nonneg_left hnear hsharp.le
        _ = c * 10 ^ k := by field_simp
    exact_mod_cast hq
  obtain ⟨hk, heq⟩ := keepsApart_spec h hc hc' hn hn' ha hb hwhole
  refine ⟨hk, mul_right_cancel₀ hwpos.ne' ?_⟩
  rw [hca, hnb, heq]

end FrameLoop.Decimal

import FrameLoop.Proofs.Binary.Around

/-! The shortest digits of a number: a decimal in the interval around it, on the first grid of powers
of ten that has one, and there the nearest. -/

namespace FrameLoop

theorem length_toDigits_bounds {n : ℕ} (hn : 0 < n) :
    10 ^ ((Nat.toDigits 10 n).length - 1) ≤ n ∧ n < 10 ^ (Nat.toDigits 10 n).length := by
  have hlen : 0 < (Nat.toDigits 10 n).length := Nat.length_toDigits_pos
  refine ⟨?_, (Nat.length_toDigits_le_iff (by norm_num) hlen).mp le_rfl⟩
  rcases Nat.eq_or_lt_of_le hlen with hone | hmore
  · rw [← hone]
    exact hn
  · by_contra hlt
    have hle := (Nat.length_toDigits_le_iff (b := 10) (n := n) (by norm_num)
      (by omega : 0 < (Nat.toDigits 10 n).length - 1)).mpr (not_le.mp hlt)
    omega

theorem ten_zpow_toNat {z : ℤ} (h : 0 ≤ z) : ((Nat.pow 10 z.toNat : ℕ) : ℚ) = 10 ^ z := by
  rw [Nat.pow_eq, Nat.cast_pow, Nat.cast_ofNat, ← zpow_natCast, Int.toNat_of_nonneg h]

namespace Decimal

/-- The value of a decimal. -/
def size (d : Decimal) : ℚ := d.digits * 10 ^ d.exponent

theorem digits_pos {d : Decimal} (h : 0 < d.size) : 0 < d.digits := by
  have hdigits := pos_of_mul_pos_left h (zpow_nonneg (by norm_num) d.exponent)
  exact_mod_cast hdigits

theorem log10Ratio_bounds {n d : ℕ} (hn : 0 < n) (hd : 0 < d) :
    (10 : ℚ) ^ log10Ratio n d ≤ n / d ∧ (n : ℚ) / d < 10 ^ (log10Ratio n d + 1) := by
  have hn' : (0 : ℚ) < n := by exact_mod_cast hn
  have hd' : (0 : ℚ) < d := by exact_mod_cast hd
  unfold log10Ratio
  split_ifs with hle
  · have hwhole : 0 < n / d := Nat.div_pos hle hd
    obtain ⟨hlow, hhigh⟩ := length_toDigits_bounds hwhole
    have hlen : 0 < (Nat.toDigits 10 (n / d)).length := Nat.length_toDigits_pos
    rw [Nat.repr_eq_ofList_toDigits, String.length_ofList]
    generalize (Nat.toDigits 10 (n / d)).length = len at *
    obtain ⟨k, rfl⟩ : ∃ k, len = k + 1 := ⟨len - 1, by omega⟩
    rw [Nat.add_sub_cancel] at hlow
    have hdown : 10 ^ k * d ≤ n := (Nat.le_div_iff_mul_le hd).mp hlow
    have hup : n < 10 ^ (k + 1) * d := (Nat.div_lt_iff_lt_mul hd).mp hhigh
    rw [show ((k + 1 : ℕ) : ℤ) - 1 = (k : ℤ) by push_cast; ring, zpow_natCast, le_div_iff₀ hd',
      div_lt_iff₀ hd', show (k : ℤ) + 1 = ((k + 1 : ℕ) : ℤ) by push_cast; rfl, zpow_natCast]
    exact ⟨by exact_mod_cast hdown, by exact_mod_cast hup⟩
  · have hlt : n < d := not_le.mp hle
    have hwhole : 0 < (d - 1) / n := Nat.div_pos (by omega) hn
    obtain ⟨hlow, hhigh⟩ := length_toDigits_bounds hwhole
    have hlen : 0 < (Nat.toDigits 10 ((d - 1) / n)).length := Nat.length_toDigits_pos
    rw [Nat.repr_eq_ofList_toDigits, String.length_ofList]
    generalize (Nat.toDigits 10 ((d - 1) / n)).length = len at *
    obtain ⟨k, rfl⟩ : ∃ k, len = k + 1 := ⟨len - 1, by omega⟩
    rw [Nat.add_sub_cancel] at hlow
    have hdown : 10 ^ k * n ≤ d - 1 := (Nat.le_div_iff_mul_le hn).mp hlow
    have hup : d - 1 < 10 ^ (k + 1) * n := (Nat.div_lt_iff_lt_mul hn).mp hhigh
    have hdown' : 10 ^ k * n < d := by omega
    have hup' : d ≤ 10 ^ (k + 1) * n := by omega
    rw [show -((k + 1 : ℕ) : ℤ) + 1 = -(k : ℤ) by push_cast; ring, zpow_neg, zpow_neg, zpow_natCast,
      zpow_natCast, le_div_iff₀ hd', div_lt_iff₀ hd', inv_mul_le_iff₀ (by positivity),
      lt_inv_mul_iff₀ (by positivity)]
    exact ⟨by exact_mod_cast hup', by exact_mod_cast hdown'⟩

theorem log10Ratio_eq {n d : ℕ} (hn : 0 < n) (hd : 0 < d) {t : ℤ} (hlow : (10 : ℚ) ^ t ≤ n / d)
    (hhigh : (n : ℚ) / d < 10 ^ (t + 1)) : log10Ratio n d = t := by
  obtain ⟨hlow', hhigh'⟩ := log10Ratio_bounds hn hd
  have hten : (1 : ℚ) < 10 := by norm_num
  have hup := (zpow_lt_zpow_iff_right₀ hten).mp (hlow.trans_lt hhigh')
  have hdown := (zpow_lt_zpow_iff_right₀ hten).mp (hlow'.trans_lt hhigh)
  omega

theorem trim_size (fuel : ℕ) (d : Decimal) : (trim fuel d).size = d.size := by
  induction fuel generalizing d with
  | zero => rfl
  | succ fuel ih =>
    rw [trim]
    split_ifs with h
    · rw [ih, size, size]
      have hdigits : d.digits = 10 * (d.digits / 10) := by omega
      have hcast : (d.digits : ℚ) = 10 * (d.digits / 10 : ℕ) := by exact_mod_cast hdigits
      rw [zpow_add_one₀ (by norm_num), hcast]
      ring
    · rfl

theorem trim_le (fuel : ℕ) (d : Decimal) :
    (trim fuel d).digits ≤ d.digits ∧ d.exponent ≤ (trim fuel d).exponent := by
  induction fuel generalizing d with
  | zero => exact ⟨le_rfl, le_rfl⟩
  | succ fuel ih =>
    rw [trim]
    split_ifs with h
    · obtain ⟨hd, he⟩ := ih ⟨d.digits / 10, d.exponent + 1⟩
      dsimp only at hd he
      exact ⟨hd.trans (Nat.div_le_self _ _), by omega⟩
    · exact ⟨le_rfl, le_rfl⟩

namespace Interval

/-- Multiples of a power of ten, counted in units of an interval. -/
theorem grid {i : Interval} (hnum : 0 < i.unitNum) (hden : 0 < i.unitDen) (k : ℤ) :
    let a := i.unitNum * Nat.pow 10 (-k).toNat
    let b := i.unitDen * Nat.pow 10 k.toNat
    0 < a ∧ (b : ℚ) * i.unit = a * 10 ^ k := by
  intro a b
  refine ⟨Nat.mul_pos hnum (Nat.pow_pos (by norm_num)), ?_⟩
  have hden' : (i.unitDen : ℚ) ≠ 0 := by exact_mod_cast hden.ne'
  have hten : (Nat.pow 10 k.toNat : ℚ) = Nat.pow 10 (-k).toNat * 10 ^ k := by
    rcases le_total 0 k with hk | hk
    · rw [Int.toNat_of_nonpos (by omega : -k ≤ 0)]
      have hpow := ten_zpow_toNat hk
      rw [hpow]
      simp
    · rw [Int.toNat_of_nonpos hk]
      have hpow := ten_zpow_toNat (by omega : 0 ≤ -k)
      rw [hpow, ← zpow_add₀ (by norm_num)]
      simp
  have hb : (b : ℚ) = i.unitDen * (Nat.pow 10 k.toNat : ℚ) := by
    dsimp only [b]
    push_cast
    rfl
  have ha : (a : ℚ) = i.unitNum * (Nat.pow 10 (-k).toNat : ℚ) := by
    dsimp only [a]
    push_cast
    rfl
  rw [ha, hb, hten, unit]
  field_simp

/-- A point of a grid that is in an interval, and as near to its value as any other that is. -/
structure Closest (i : Interval) (step p : ℚ) : Prop where
  has : i.Has p
  below : i.Has (p - step) → |p - i.value * i.unit| ≤ |p - step - i.value * i.unit|
  above : i.Has (p + step) → |p - i.value * i.unit| ≤ |p + step - i.value * i.unit|

section

variable {i : Interval} {k : ℤ} {a b : ℕ} (ha : 0 < a) (hunit : 0 < i.unit)
  (hab : (b : ℚ) * i.unit = a * 10 ^ k)

include ha hunit hab

theorem grid_le (c u : ℕ) :
    (c * b ≤ u * a ↔ (c : ℚ) * 10 ^ k ≤ u * i.unit) ∧
      (u * a ≤ c * b ↔ (u : ℚ) * i.unit ≤ c * 10 ^ k) := by
  have ha' : (0 : ℚ) < a := by exact_mod_cast ha
  have hc : ((c * b : ℕ) : ℚ) * i.unit = a * (c * 10 ^ k) := by
    push_cast
    rw [mul_assoc, hab]
    ring
  have hu : ((u * a : ℕ) : ℚ) * i.unit = a * (u * i.unit) := by
    push_cast
    ring
  constructor
  · rw [← Nat.cast_le (α := ℚ), ← mul_le_mul_iff_left₀ hunit, hc, hu, mul_le_mul_iff_right₀ ha']
  · rw [← Nat.cast_le (α := ℚ), ← mul_le_mul_iff_left₀ hunit, hc, hu, mul_le_mul_iff_right₀ ha']

theorem holds_iff (c : ℕ) : i.holds a b c = true ↔ i.Has (c * 10 ^ k) := by
  obtain ⟨-, hlower⟩ := grid_le ha hunit hab c i.lower
  obtain ⟨hupper, -⟩ := grid_le ha hunit hab c i.upper
  obtain ⟨hlower', -⟩ := grid_le ha hunit hab c i.lower
  obtain ⟨-, hupper'⟩ := grid_le ha hunit hab c i.upper
  unfold holds Has
  split_ifs
  · simp only [Bool.and_eq_true, decide_eq_true_eq, hlower, hupper]
  · simp only [Bool.and_eq_true, decide_eq_true_eq, ← not_le, hlower', hupper']

end

variable {i : Interval} {k : ℤ}

/-- The two points of a grid beside the value of an interval. -/
theorem beside (hunit : 0 < i.unit) {a b : ℕ} (ha : 0 < a) (hb : 0 < b)
    (hab : (b : ℚ) * i.unit = a * 10 ^ k) :
    ((i.value * a / b : ℕ) : ℚ) * 10 ^ k ≤ i.value * i.unit ∧
      (i.value : ℚ) * i.unit < ((i.value * a / b + 1 : ℕ) : ℚ) * 10 ^ k := by
  obtain ⟨hle, -⟩ := grid_le ha hunit hab (i.value * a / b) i.value
  obtain ⟨hlt, -⟩ := grid_le ha hunit hab (i.value * a / b + 1) i.value
  refine ⟨hle.mp (Nat.div_mul_le_self _ _), ?_⟩
  have hnext : i.value * a < (i.value * a / b + 1) * b :=
    (Nat.lt_mul_div_succ _ hb).trans_eq (Nat.mul_comm _ _)
  exact not_le.mp fun h => absurd (hlt.mpr h) (not_le.mpr hnext)

section

variable {step p : ℚ} (hstep : 0 < step) (hle : p ≤ i.value * i.unit) (hlt : i.value * i.unit < p + step)

include hstep hle hlt

/-- The point before the value is the closest one unless the next one is in the interval and nearer. -/
theorem closest_before (hhas : i.Has p)
    (hnear : i.Has (p + step) → 2 * (i.value * i.unit) ≤ 2 * p + step) : i.Closest step p := by
  refine ⟨hhas, fun _ => ?_, fun habove => ?_⟩
  · rw [abs_of_nonpos (by linarith), abs_of_nonpos (by linarith)]
    linarith
  · have hnear' := hnear habove
    rw [abs_of_nonpos (by linarith), abs_of_nonneg (by linarith)]
    linarith

omit hle in
theorem closest_after (hhas : i.Has (p + step))
    (hnear : i.Has p → 2 * p + step ≤ 2 * (i.value * i.unit)) : i.Closest step (p + step) := by
  refine ⟨hhas, fun hbelow => ?_, fun _ => ?_⟩
  · rw [add_sub_cancel_right] at hbelow ⊢
    have hnear' := hnear hbelow
    rw [abs_of_nonneg (by linarith), abs_of_nonpos (by linarith)]
    linarith
  · rw [abs_of_nonneg (by linarith), abs_of_nonneg (by linarith)]
    linarith

end

theorem nearest?_closest (hnum : 0 < i.unitNum) (hden : 0 < i.unitDen) {tie : Tie} {c : ℕ}
    (h : i.nearest? tie k = some c) : i.Closest (10 ^ k) (c * 10 ^ k) := by
  have hunit : 0 < i.unit := div_pos (by exact_mod_cast hnum) (by exact_mod_cast hden)
  obtain ⟨ha, hab⟩ := grid hnum hden k
  have hb : 0 < i.unitDen * Nat.pow 10 k.toNat := Nat.mul_pos hden (Nat.pow_pos (by norm_num))
  unfold nearest? at h
  dsimp only at h ha hab
  generalize i.unitNum * Nat.pow 10 (-k).toNat = a at *
  generalize i.unitDen * Nat.pow 10 k.toNat = b at *
  obtain ⟨hle, hlt⟩ := beside hunit ha hb hab
  have hbelow := holds_iff ha hunit hab (i.value * a / b)
  have habove := holds_iff ha hunit hab (i.value * a / b + 1)
  obtain ⟨hless, hmore⟩ := grid_le ha hunit hab (2 * (i.value * a / b) + 1) (2 * i.value)
  generalize i.value * a / b = below at *
  have hpow : (0 : ℚ) < 10 ^ k := by positivity
  have hstep : ((below + 1 : ℕ) : ℚ) * 10 ^ k = below * 10 ^ k + 10 ^ k := by
    push_cast
    ring
  have hmiddle : ((2 * below + 1 : ℕ) : ℚ) * 10 ^ k = 2 * (below * 10 ^ k) + 10 ^ k := by
    push_cast
    ring
  have hdouble : ((2 * i.value : ℕ) : ℚ) * i.unit = 2 * (i.value * i.unit) := by
    push_cast
    ring
  rw [hmiddle, hdouble] at hless hmore
  rw [hstep] at hlt habove
  have hsum : below + (below + 1) = 2 * below + 1 := by ring
  rw [hsum] at h
  cases hb : i.holds a b below with
  | false =>
    cases ht : i.holds a b (below + 1) with
    | false => simp [hb, ht] at h
    | true =>
      simp only [hb, ht, Option.some.injEq] at h
      rw [← h, hstep]
      exact closest_after hpow hlt (habove.mp ht) fun hhas => absurd (hbelow.mpr hhas) (by simp [hb])
  | true =>
    cases ht : i.holds a b (below + 1) with
    | false =>
      simp only [hb, ht, Option.some.injEq] at h
      rw [← h]
      exact closest_before hpow hle hlt (hbelow.mp hb) fun hhas => absurd (habove.mpr hhas) (by simp [ht])
    | true =>
      have hbefore (hcmp : 2 * i.value * a ≤ (2 * below + 1) * b) :
          i.Closest (10 ^ k) (below * 10 ^ k) :=
        closest_before hpow hle hlt (hbelow.mp hb) fun _ => hmore.mp hcmp
      have hafter (hcmp : (2 * below + 1) * b ≤ 2 * i.value * a) :
          i.Closest (10 ^ k) (below * 10 ^ k + 10 ^ k) :=
        closest_after hpow hlt (habove.mp ht) fun _ => hless.mp hcmp
      simp only [hb, ht, Option.some.injEq] at h
      cases hcmp : compare ((2 * below + 1) * b) (2 * i.value * a) with
      | lt =>
        rw [hcmp] at h
        rw [← h, hstep]
        exact hafter (Nat.compare_eq_lt.mp hcmp).le
      | gt =>
        rw [hcmp] at h
        rw [← h]
        exact hbefore (Nat.compare_eq_gt.mp hcmp).le
      | eq =>
        have heq := Nat.compare_eq_eq.mp hcmp
        rw [hcmp] at h
        dsimp only at h
        split_ifs at h
        · rw [← h, hstep]
          exact hafter heq.le
        · rw [← h]
          exact hbefore heq.ge

/-- A grid that is finer than an interval has a point in it, beside the value. -/
theorem nearest?_isSome (hnum : 0 < i.unitNum) (hden : 0 < i.unitDen) (tie : Tie)
    (hl : i.lower < i.value) (hu : i.value < i.upper)
    (hfine : (10 : ℚ) ^ k < (i.upper - i.lower) * i.unit) : (i.nearest? tie k).isSome := by
  have hunit : 0 < i.unit := div_pos (by exact_mod_cast hnum) (by exact_mod_cast hden)
  obtain ⟨ha, hab⟩ := grid hnum hden k
  have hb : 0 < i.unitDen * Nat.pow 10 k.toNat := Nat.mul_pos hden (Nat.pow_pos (by norm_num))
  unfold nearest?
  dsimp only at ha hab ⊢
  generalize i.unitNum * Nat.pow 10 (-k).toNat = a at *
  generalize i.unitDen * Nat.pow 10 k.toNat = b at *
  obtain ⟨hle, hlt⟩ := beside hunit ha hb hab
  have hholds := holds_iff ha hunit hab
  generalize i.value * a / b = below at *
  have hl' : (i.lower : ℚ) * i.unit < i.value * i.unit :=
    mul_lt_mul_of_pos_right (by exact_mod_cast hl) hunit
  have hu' : (i.value : ℚ) * i.unit < i.upper * i.unit :=
    mul_lt_mul_of_pos_right (by exact_mod_cast hu) hunit
  rcases lt_or_ge ((i.lower : ℚ) * i.unit) (below * 10 ^ k) with hin | hout
  · have hbelow := (hholds below).mpr (has_of_lt hin (hle.trans_lt hu'))
    rw [hbelow]
    cases i.holds a b (below + 1) <;> rfl
  · have hstep : ((below + 1 : ℕ) : ℚ) * 10 ^ k = below * 10 ^ k + 10 ^ k := by
      push_cast
      ring
    have habove := (hholds (below + 1)).mpr (has_of_lt (hl'.trans hlt) (by rw [hstep]; linarith))
    rw [habove]
    cases i.holds a b below <;> rfl

end Interval

variable {F : FloatFormat} {x : Binary F}

theorem around_value : (Interval.around x).value * (Interval.around x).unit = x.size := by
  rw [Binary.size, Interval.scale_unit]
  change ((4 * x.mantissa : ℕ) : ℚ) * _ = _
  push_cast
  ring

/-- The last of the grids that are tried is finer than the interval of a number, if the format has
no more places than double precision. -/
theorem finest (hF : F.fraction ≤ 52) {top : ℤ} (htop : (10 : ℚ) ^ top ≤ x.size) :
    (10 : ℚ) ^ (top - 16) <
      ((Interval.around x).upper - (Interval.around x).lower) * (Interval.around x).unit := by
  have hunit := Interval.unit_pos x
  have hx : 0 < x.mantissa := by
    by_contra hzero
    have hsize : x.size = 0 := by simp [Binary.size, Nat.eq_zero_of_not_pos hzero]
    rw [hsize] at htop
    exact absurd htop (not_le.mpr (by positivity))
  have hgrid : (10 : ℚ) ^ (top - 16) = 10 ^ top / 10 ^ 16 := by
    rw [zpow_sub₀ (by norm_num)]
    norm_cast
  rw [← around_value, Interval.around] at htop
  have hplaces : (2 : ℕ) ^ (F.fraction + 1) ≤ 2 ^ 53 := Nat.pow_le_pow_right (by norm_num) (by omega)
  have hm : (x.mantissa : ℚ) < 2 ^ 53 := by exact_mod_cast x.mantissa_lt.trans_le hplaces
  have htop' : (10 : ℚ) ^ top ≤ 4 * x.mantissa * (Interval.around x).unit := by
    refine htop.trans_eq ?_
    push_cast
    rfl
  rw [Binary.around_upper, Binary.around_lower hx, hgrid, div_lt_iff₀ (by norm_num)]
  refine htop'.trans_lt ?_
  by_cases hnarrow : x.isNarrow = true
  · -- the smallest mantissa, so the interval is wide for the value
    have hleast : (x.mantissa : ℚ) ≤ 2 ^ 52 := by
      have heq : x.mantissa = 2 ^ F.fraction := by
        simp only [Binary.isNarrow, Bool.and_eq_true, beq_iff_eq] at hnarrow
        exact hnarrow.1
      have hpow : (2 : ℕ) ^ F.fraction ≤ 2 ^ 52 := Nat.pow_le_pow_right (by norm_num) hF
      rw [heq]
      exact_mod_cast hpow
    rw [if_pos hnarrow]
    nlinarith
  · rw [if_neg hnarrow]
    nlinarith

/-- What is known of the shortest digits: they are those of a point of some grid that is in the
interval and nearest there, without its trailing zeros. -/
structure Shortened (i : Interval) (d : Decimal) (c : ℕ) (k : ℤ) : Prop where
  closest : i.Closest (10 ^ k) (c * 10 ^ k)
  size : d.size = c * 10 ^ k
  digits_le : d.digits ≤ c
  le_exponent : k ≤ d.exponent
  le : c ≤ 2 * 10 ^ 17

theorem log10Ratio_size (hx : 0 < x.mantissa) {top : ℤ}
    (htop : top = log10Ratio ((Interval.around x).value * (Interval.around x).unitNum)
      (Interval.around x).unitDen) : (10 : ℚ) ^ top ≤ x.size ∧ x.size < 10 ^ (top + 1) := by
  have hnum : 0 < (Interval.around x).unitNum := Nat.two_pow_pos _
  have hden : 0 < (Interval.around x).unitDen := Nat.two_pow_pos _
  have hvalue : 0 < (Interval.around x).value * (Interval.around x).unitNum :=
    Nat.mul_pos (Nat.mul_pos (by norm_num) hx) hnum
  have hlog := log10Ratio_bounds hvalue hden
  rwa [← htop, Nat.cast_mul, mul_div_assoc, ← Interval.unit, around_value] at hlog

/-- A point is at most half above the value, so it has not many more digits than the value. -/
theorem digits_le_of_has (hx : 0 < x.mantissa) {top k : ℤ} (hhigh : x.size < 10 ^ (top + 1))
    (hk : top - 16 ≤ k) {c : ℕ} (h : (Interval.around x).Has (c * 10 ^ k)) : c ≤ 2 * 10 ^ 17 := by
  have hunit := Interval.unit_pos x
  have hm : (1 : ℚ) ≤ x.mantissa := by exact_mod_cast hx
  have hupper := h.bounds.2
  rw [Binary.around_upper] at hupper
  have hvalue := around_value (x := x)
  change ((4 * x.mantissa : ℕ) : ℚ) * _ = _ at hvalue
  push_cast at hvalue
  have hpow : (0 : ℚ) < 10 ^ k := by positivity
  have hfine : (10 : ℚ) ^ (top + 1) ≤ 10 ^ 17 * 10 ^ k := by
    rw [← zpow_natCast (10 : ℚ) 17, ← zpow_add₀ (by norm_num)]
    exact zpow_le_zpow_right₀ (by norm_num) (by push_cast; omega)
  have hgrow := mul_le_mul_of_nonneg_right hm hunit.le
  have hle : (c : ℚ) * 10 ^ k ≤ (2 * 10 ^ 17) * 10 ^ k := by linarith
  exact_mod_cast le_of_mul_le_mul_right hle hpow

theorem shortest_shortened (hF : F.fraction ≤ 52) (tie : Tie) (hx : 0 < x.mantissa) :
    ∃ c k, Shortened (Interval.around x) (shortest tie x) c k := by
  have hnum : 0 < (Interval.around x).unitNum := Nat.two_pow_pos _
  have hden : 0 < (Interval.around x).unitDen := Nat.two_pow_pos _
  obtain ⟨top, htop⟩ : ∃ top, top = log10Ratio
    ((Interval.around x).value * (Interval.around x).unitNum) (Interval.around x).unitDen := ⟨_, rfl⟩
  obtain ⟨hlow, hhigh⟩ := log10Ratio_size hx htop
  let level (n : ℕ) : Option Decimal :=
    ((Interval.around x).nearest? tie (top - n)).map fun c => trim 20 ⟨c, top - n⟩
  -- if no coarser grid has a point in the interval, the last one has
  have hlast : (level 16).isSome := by
    rw [Option.isSome_map]
    apply Interval.nearest?_isSome hnum hden
    · change 4 * x.mantissa - _ < 4 * x.mantissa
      split_ifs <;> omega
    · change 4 * x.mantissa < 4 * x.mantissa + 2
      omega
    · exact finest hF hlow
  have hfound : ((List.range 17).findSome? level).isSome := by
    rw [List.findSome?_isSome_iff]
    exact ⟨16, List.mem_range.mpr (by norm_num), hlast⟩
  obtain ⟨d, hd⟩ := Option.isSome_iff_exists.mp hfound
  have hshortest : shortest tie x = d := by
    unfold shortest
    rw [if_neg hx.ne']
    dsimp only
    rw [← htop]
    change ((List.range 17).findSome? level).getD ⟨0, 0⟩ = d
    rw [hd]
    rfl
  obtain ⟨n, hn, hlevel⟩ := List.exists_of_findSome?_eq_some hd
  have hn' : n < 17 := List.mem_range.mp hn
  obtain ⟨c, hc, htrim⟩ := Option.map_eq_some_iff.mp hlevel
  have hclosest := Interval.nearest?_closest hnum hden hc
  obtain ⟨hdigits, hexponent⟩ := trim_le 20 ⟨c, top - n⟩
  refine ⟨c, top - n, hclosest, ?_, ?_, ?_, digits_le_of_has hx hhigh (by omega) hclosest.has⟩
  · rw [hshortest, ← htrim, trim_size]
    rfl
  · rwa [hshortest, ← htrim]
  · rwa [hshortest, ← htrim]

end Decimal

end FrameLoop

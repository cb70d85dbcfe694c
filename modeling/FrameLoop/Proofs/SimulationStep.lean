import FrameLoop.Limiter
import FrameLoop.Proofs.Binary.Operations

/-! The step of simulated time as a number of seconds, and the sum of such steps. The nanoseconds of
a frame are rounded, and so is the quotient. The clock takes the step as it is and rounds the sum. -/

namespace FrameLoop

namespace Binary

variable {F : FloatFormat} {x y z : Binary F} {q : ℚ}

/-- A finite number that is not negative. -/
structure Nonneg (x : Binary F) : Prop where
  finite : x.isFinite = true
  sign : x.negative = false

theorem size_eq_zero (h : x.magnitude = 0) : x.size = 0 := by
  have hm : ¬ 0 < x.mantissa := fun hpos => absurd (mantissa_pos_iff.mp hpos) (by omega)
  rw [size, Nat.eq_zero_of_not_pos hm, Nat.cast_zero, zero_mul]

theorem rounds_self (hx : x.isFinite = true) : x.Rounds x.size := by
  have hrounds := (convert_rounds (G := F) hx).2
  rwa [convert_self hx] at hrounds

/-- A ratio that is not above a number is not rounded to one above it. -/
theorem Rounds.size_le_of_le (h : y.Rounds q) (hy : y.isFinite = true) (hz : z.isFinite = true)
    (hq : 0 ≤ q) (hle : q ≤ z.size) : y.size ≤ z.size := by
  rcases hq.eq_or_lt with rfl | hpos
  · rw [size_eq_zero h.zero]
    exact z.size_nonneg
  · exact h.size_le (rounds_self hz) hy hz hpos hle

theorem zero_add_of_nonneg (hx : x.Nonneg) : zero false + x = x := by
  have hzero : (zero false : Binary F).Nonneg := by
    refine ⟨?_, rfl⟩
    have hfinite := hx.finite
    simp only [isFinite, decide_eq_true_eq] at hfinite ⊢
    exact Nat.zero_lt_of_lt hfinite
  obtain ⟨hsign, hrounds⟩ := add_rounds hzero.finite hx.finite hzero.sign hx.sign
  rw [size_eq_zero (x := zero false) rfl, zero_add] at hrounds
  exact ext (hsign.trans hx.sign.symm) (hrounds.magnitude_self hx.finite)

/-- Every number of the smaller format is one of the larger. -/
theorem widened {x : Single} (hx : x.Nonneg) :
    (x.convert : Double).Nonneg ∧ (x.convert : Double).size = x.size := by
  obtain ⟨hsign, hrounds⟩ := convert_rounds (G := .double) hx.finite
  have hm : x.mantissa < 2 ^ 24 := x.mantissa_lt
  have hmagnitude : x.magnitude < 255 * 2 ^ 23 := of_decide_eq_true hx.finite
  have hscale : x.scale ≤ 104 := by
    have hdiv : x.magnitude / 2 ^ 23 < 255 := Nat.div_lt_of_lt_mul (by omega)
    change (2 - 2 ^ 7 - 23 : ℤ) + (x.magnitude / 2 ^ 23 - 1 : ℕ) ≤ 104
    omega
  have hbound : x.size < 2 ^ (1023 : ℤ) := by
    have hm' : (x.mantissa : ℚ) ≤ 2 ^ 24 := by exact_mod_cast hm.le
    have hpow : (2 : ℚ) ^ x.scale ≤ 2 ^ (104 : ℤ) := zpow_le_zpow_right₀ one_le_two hscale
    calc x.size ≤ 2 ^ 24 * 2 ^ (104 : ℤ) := mul_le_mul hm' hpow (by positivity) (by positivity)
      _ = 2 ^ (128 : ℤ) := by norm_num
      _ < 2 ^ (1023 : ℤ) := (zpow_lt_zpow_iff_right₀ one_lt_two).mpr (by decide)
  have hfinite : (x.convert : Double).isFinite = true := hrounds.isFinite (by decide) hbound
  refine ⟨⟨hfinite, hsign.trans hx.sign⟩, ?_⟩
  rcases Nat.eq_zero_or_pos x.mantissa with hzero | hpos
  · have hsize : x.size = 0 := by rw [size, hzero, Nat.cast_zero, zero_mul]
    rw [hsize] at hrounds ⊢
    exact size_eq_zero hrounds.zero
  · have hleast : FloatFormat.double.least ≤ x.scale :=
      le_trans (by decide) x.least_le_scale
    exact hrounds.exact hfinite hleast (hm.trans (by decide)) hpos

/-- The sum of a finite number and one up to one is finite: a large number it does not change. -/
theorem add_upTo_one {x y : Double} (hx : x.Nonneg) (hy : y.Nonneg) (hone : y.size ≤ 1) :
    (x + y).Nonneg ∧ (x + y).Rounds (x.size + y.size) := by
  obtain ⟨hsign, hrounds⟩ := add_rounds hx.finite hy.finite hx.sign hy.sign
  refine ⟨⟨?_, hsign⟩, hrounds⟩
  have hpos := y.size_nonneg
  rcases le_or_gt x.scale 10 with hsmall | hlarge
  · refine hrounds.isFinite (by decide) ?_
    have hm : (x.mantissa : ℚ) ≤ 2 ^ 53 := by exact_mod_cast x.mantissa_lt.le
    have hpow : (2 : ℚ) ^ x.scale ≤ 2 ^ (10 : ℤ) := zpow_le_zpow_right₀ one_le_two hsmall
    calc x.size + y.size ≤ 2 ^ 53 * 2 ^ (10 : ℤ) + 1 :=
          add_le_add (mul_le_mul hm hpow (by positivity) (by positivity)) hone
      _ < 2 ^ (64 : ℤ) := by norm_num
      _ < 2 ^ (1023 : ℤ) := (zpow_lt_zpow_iff_right₀ one_lt_two).mpr (by decide)
  · have hnormal : FloatFormat.double.least < x.scale := lt_trans (by decide) hlarge
    have hm : 0 < x.mantissa := (Nat.two_pow_pos _).trans_le (le_mantissa hnormal)
    have hplace : (2 : ℚ) ^ (1 : ℤ) < 2 ^ x.scale :=
      (zpow_lt_zpow_iff_right₀ one_lt_two).mpr (by omega)
    have hhas : (Decimal.Interval.around x).Has (x.size + y.size) :=
      has_of_above hm (by linarith) (by linarith)
    have hsame := hrounds.magnitude_eq hx.finite hm hhas
    rw [isFinite, hsame]
    exact hx.finite

end Binary

open Binary

namespace Duration

/-- A number is a duration in seconds, which has been rounded twice: the nanoseconds, and then the
quotient. -/
structure InSeconds (d : Duration) (x : Single) : Prop where
  sign : x.negative = false
  rounds : ∃ nanos : Single, nanos.Rounds d ∧ x.Rounds (nanos.size / 10 ^ 9)

theorem second_size : (Binary.ofNat second : Single).size = 10 ^ 9 := by
  have hm : (Binary.ofNat second : Single).mantissa = 15625000 := by decide +kernel
  have hscale : (Binary.ofNat second : Single).scale = 6 := by decide +kernel
  rw [size, hm, hscale]
  norm_num

theorem one_size : (Binary.ofNat 1 : Single).size = 1 := by
  have hm : (Binary.ofNat 1 : Single).mantissa = 2 ^ 23 := by decide +kernel
  have hscale : (Binary.ofNat 1 : Single).scale = -23 := by decide +kernel
  rw [size, hm, hscale]
  norm_num

/-- Less than a second has no whole seconds, and what is added to them stays as it is. -/
theorem inSeconds {d : Duration} (h : d < second) :
    d.InSeconds d.seconds ∧ (d.seconds : Single).Nonneg ∧ (d.seconds : Single).size ≤ 1 := by
  let nanos : Single := .ofNat d
  let fraction : Single := nanos / .ofNat second
  have hnanos : nanos.Rounds d := ofNat_rounds d
  have hd : (d : ℚ) ≤ 10 ^ 9 := by exact_mod_cast h.le
  have htop : (10 : ℚ) ^ 9 < 2 ^ FloatFormat.single.top := by
    norm_num [FloatFormat.top, FloatFormat.least, FloatFormat.single]
  have hfinite : nanos.isFinite = true := hnanos.isFinite (by decide) (hd.trans_lt htop)
  have hsecond : (Binary.ofNat second : Single).isFinite = true := by decide +kernel
  have hone : (Binary.ofNat 1 : Single).isFinite = true := by decide +kernel
  have hle : nanos.size ≤ 10 ^ 9 := by
    rw [← second_size]
    exact hnanos.size_le_of_le hfinite hsecond (Nat.cast_nonneg d) (second_size ▸ hd)
  obtain ⟨hsign, hrounds⟩ := div_rounds hfinite hsecond (by decide +kernel)
  rw [second_size] at hrounds
  have hquotient : nanos.size / 10 ^ 9 ≤ 1 := (div_le_one (by norm_num)).mpr hle
  have hsmall : nanos.size / 10 ^ 9 < 2 ^ FloatFormat.single.top := by linarith
  have hnonneg : fraction.Nonneg := ⟨hrounds.isFinite (by decide) hsmall, hsign⟩
  have hseconds : (d.seconds : Single) = fraction := by
    have hsum := zero_add_of_nonneg hnonneg
    rw [seconds, Nat.div_eq_of_lt h, Nat.mod_eq_of_lt h]
    exact hsum
  rw [hseconds]
  refine ⟨⟨hsign, nanos, hnanos, hrounds⟩, hnonneg, ?_⟩
  rw [← one_size]
  refine hrounds.size_le_of_le hnonneg.finite hone ?_ (one_size ▸ hquotient)
  exact div_nonneg nanos.size_nonneg (by norm_num)

end Duration

theorem simulationStep_inSeconds (frame : Duration) :
    Duration.InSeconds (min frame (200 * 10 ^ 6)) (simulationStep frame) ∧
      (simulationStep frame).Nonneg ∧ (simulationStep frame).size ≤ 1 :=
  Duration.inSeconds ((Nat.min_le_right _ _).trans_lt (by decide))

/-- A step goes into the sum as it is, and the sum is rounded once. -/
theorem add_simulationStep {time : Double} (h : time.Nonneg) (frame : Duration) :
    (time + (simulationStep frame).convert).Nonneg ∧
      (time + (simulationStep frame).convert).Rounds (time.size + (simulationStep frame).size) := by
  obtain ⟨-, hstep, hone⟩ := simulationStep_inSeconds frame
  obtain ⟨hwide, hsize⟩ := widened hstep
  rw [← hsize] at hone ⊢
  exact add_upTo_one h hwide hone

end FrameLoop

import FrameLoop.Decimal.Shortest
import Mathlib.Algebra.Order.Field.Power
import Mathlib.Algebra.Order.Field.Rat
import Mathlib.Tactic.FieldSimp
import Mathlib.Tactic.Linarith
import Mathlib.Tactic.NormNum
import Mathlib.Tactic.Positivity
import Mathlib.Tactic.Ring

/-! Rounding to the nearest number of a format. A ratio is rounded at a place, the last one that
numbers of its size have, and it is rounded to a number exactly if it lies in the interval around it. -/

namespace FrameLoop

/-- An integer nearest to a ratio; a half goes to the even one. -/
structure Nearest (q : ℚ) (n : ℕ) : Prop where
  le : |q - n| ≤ 1 / 2
  tie : |q - n| = 1 / 2 → n % 2 = 0

theorem Nearest.le_of {q q' : ℚ} {n m : ℕ} (h : Nearest q n) (h' : Nearest q' m) (hle : q ≤ q') :
    n ≤ m := by
  by_contra hlt
  have hn := abs_le.mp h.le
  have hm := abs_le.mp h'.le
  have hnext : (m : ℚ) + 1 ≤ n := by exact_mod_cast not_le.mp hlt
  -- they are next to each other with both ratios in the middle, so both are even
  have hup : q' - m = 1 / 2 := by linarith
  have hdown : q - n = -(1 / 2) := by linarith
  have hone : (n : ℚ) = m + 1 := by linarith
  have heven := h.tie (by rw [hdown]; norm_num)
  have heven' := h'.tie (by rw [hup]; norm_num)
  have hsucc : n = m + 1 := by exact_mod_cast hone
  omega

theorem Nearest.unique {q : ℚ} {n m : ℕ} (h : Nearest q n) (h' : Nearest q m) : n = m :=
  le_antisymm (h.le_of h' le_rfl) (h'.le_of h le_rfl)

/-- Up to a half there is nothing left. -/
theorem Nearest.pos_iff {q : ℚ} {n : ℕ} (h : Nearest q n) (hq : 0 ≤ q) : 0 < n ↔ 1 / 2 < q := by
  constructor
  · intro hn
    by_contra hsmall
    have hzero : Nearest q 0 := by
      refine ⟨?_, fun _ => rfl⟩
      rw [Nat.cast_zero, sub_zero, abs_of_nonneg hq]
      exact not_lt.mp hsmall
    exact hn.ne' (h.unique hzero)
  · intro hlarge
    by_contra hn
    obtain rfl : n = 0 := Nat.eq_zero_of_not_pos hn
    have hle := (abs_le.mp h.le).2
    rw [Nat.cast_zero, sub_zero] at hle
    exact absurd hle (not_le.mpr hlarge)

theorem divRoundEven_nearest (n : ℕ) {d : ℕ} (hd : 0 < d) :
    Nearest ((n : ℚ) / d) (divRoundEven n d) := by
  have hd' : (0 : ℚ) < d := by exact_mod_cast hd
  have hn : (n : ℚ) / d = (n / d : ℕ) + ((n % d : ℕ) : ℚ) / d := by
    have hdiv : ((d * (n / d) + n % d : ℕ) : ℚ) = n := by rw [Nat.div_add_mod]
    rw [← hdiv]
    push_cast
    field_simp
  have hrest : n % d < d := Nat.mod_lt n hd
  have hpos : (0 : ℚ) ≤ ((n % d : ℕ) : ℚ) / d := by positivity
  have hlt : ((n % d : ℕ) : ℚ) / d < 1 := by
    rw [div_lt_one hd']
    exact_mod_cast hrest
  have hhalf : 2 * (((n % d : ℕ) : ℚ) / d) * d = ((2 * (n % d) : ℕ) : ℚ) := by
    push_cast
    field_simp
  unfold divRoundEven
  dsimp only
  rw [hn]
  generalize ((n % d : ℕ) : ℚ) / d = rest at *
  split_ifs with hbelow habove
  · have hsmall : 2 * rest * d < 1 * d := by
      rw [hhalf, one_mul]
      exact_mod_cast hbelow
    have hrest2 := lt_of_mul_lt_mul_right hsmall hd'.le
    have hdist : (n / d : ℕ) + rest - (n / d : ℕ) = rest := by ring
    constructor
    · rw [hdist, abs_of_nonneg hpos]
      linarith
    · intro htie
      rw [hdist, abs_of_nonneg hpos] at htie
      linarith
  · have hlarge : 1 * (d : ℚ) < 2 * rest * d := by
      rw [hhalf, one_mul]
      exact_mod_cast habove
    have hrest2 := lt_of_mul_lt_mul_right hlarge hd'.le
    have hdist : (n / d : ℕ) + rest - ((n / d + 1 : ℕ) : ℚ) = -(1 - rest) := by
      push_cast
      ring
    constructor
    · rw [hdist, abs_neg, abs_of_nonneg (by linarith)]
      linarith
    · intro htie
      rw [hdist, abs_neg, abs_of_nonneg (by linarith)] at htie
      linarith
  · have heq : 2 * (n % d) = d := by omega
    have hrest2 : rest = 1 / 2 := by
      rw [heq] at hhalf
      have hone : 2 * rest = 1 := mul_right_cancel₀ hd'.ne' (hhalf.trans (one_mul (d : ℚ)).symm)
      linarith
    subst hrest2
    have hparity : n / d % 2 = 0 ∨ n / d % 2 = 1 := by omega
    refine ⟨?_, fun _ => by omega⟩
    rcases hparity with heven | hodd
    · rw [heven, abs_le]
      push_cast
      constructor <;> linarith
    · rw [hodd, abs_le]
      push_cast
      constructor <;> linarith

theorem two_zpow_toNat {z : ℤ} (h : 0 ≤ z) : ((Nat.pow 2 z.toNat : ℕ) : ℚ) = 2 ^ z := by
  rw [Nat.pow_eq, Nat.cast_pow, Nat.cast_ofNat, ← zpow_natCast, Int.toNat_of_nonneg h]

theorem two_zpow_toNat_neg {z : ℤ} (h : ¬ 0 ≤ z) :
    ((Nat.pow 2 (-z).toNat : ℕ) : ℚ) = (2 ^ z)⁻¹ := by
  rw [two_zpow_toNat (by omega), zpow_neg]

theorem log2_bounds {n : ℕ} (hn : 0 < n) :
    (2 : ℚ) ^ (n.log2 : ℤ) ≤ n ∧ (n : ℚ) < 2 ^ ((n.log2 : ℤ) + 1) := by
  have hle := Nat.log2_self_le hn.ne'
  have hlt := Nat.lt_log2_self (n := n)
  constructor
  · rw [zpow_natCast]
    exact_mod_cast hle
  · have hcast : ((n.log2 : ℤ) + 1) = ((n.log2 + 1 : ℕ) : ℤ) := by push_cast; rfl
    rw [hcast, zpow_natCast]
    exact_mod_cast hlt

theorem log2Ratio_bounds {n d : ℕ} (hn : 0 < n) (hd : 0 < d) :
    (2 : ℚ) ^ log2Ratio n d ≤ n / d ∧ (n : ℚ) / d < 2 ^ (log2Ratio n d + 1) := by
  have hd' : (0 : ℚ) < d := by exact_mod_cast hd
  obtain ⟨hn1, hn2⟩ := log2_bounds hn
  obtain ⟨hd1, hd2⟩ := log2_bounds hd
  -- the lengths of the two leave one doubt, which a comparison settles
  let guess : ℤ := (n.log2 : ℤ) - d.log2
  have hupper : (n : ℚ) / d < 2 ^ (guess + 1) := by
    rw [div_lt_iff₀ hd']
    calc (n : ℚ) < 2 ^ ((n.log2 : ℤ) + 1) := hn2
      _ = 2 ^ (guess + 1) * 2 ^ (d.log2 : ℤ) := by
        rw [← zpow_add₀ two_ne_zero]
        congr 1
        omega
      _ ≤ 2 ^ (guess + 1) * d := mul_le_mul_of_nonneg_left hd1 (by positivity)
  have hlower : (2 : ℚ) ^ (guess - 1) < n / d := by
    rw [lt_div_iff₀ hd']
    calc (2 : ℚ) ^ (guess - 1) * d < 2 ^ (guess - 1) * 2 ^ ((d.log2 : ℤ) + 1) :=
          mul_lt_mul_of_pos_left hd2 (by positivity)
      _ = 2 ^ (n.log2 : ℤ) := by
        rw [← zpow_add₀ two_ne_zero]
        congr 1
        omega
      _ ≤ n := hn1
  have hreached : (if 0 ≤ guess then d * Nat.pow 2 guess.toNat ≤ n
      else d ≤ n * Nat.pow 2 (-guess).toNat) ↔ (2 : ℚ) ^ guess ≤ n / d := by
    rw [le_div_iff₀ hd']
    split_ifs with hg
    · rw [← two_zpow_toNat hg, mul_comm]
      norm_cast
    · have hpow : (0 : ℚ) < 2 ^ guess := by positivity
      have hneg := two_zpow_toNat_neg hg
      rw [← Nat.cast_le (α := ℚ), Nat.cast_mul, hneg, ← div_eq_mul_inv, le_div_iff₀ hpow, mul_comm]
  have hlog : log2Ratio n d = if (2 : ℚ) ^ guess ≤ n / d then guess else guess - 1 := by
    unfold log2Ratio
    dsimp only
    by_cases hr : (2 : ℚ) ^ guess ≤ n / d
    · rw [if_pos hr]
      have htrue := hreached.mpr hr
      split_ifs at htrue ⊢ <;> simp_all [guess]
    · rw [if_neg hr]
      have hfalse := fun h => hr (hreached.mp h)
      split_ifs at hfalse ⊢ <;> simp_all [guess]
  rw [hlog]
  split_ifs with hr
  · exact ⟨hr, hupper⟩
  · refine ⟨hlower.le, ?_⟩
    rw [sub_add_cancel]
    exact not_le.mp hr

/-- How a ratio is rounded: at a place that numbers of its size have. -/
structure Rounded (F : FloatFormat) (q : ℚ) (place : ℤ) (mantissa : ℕ) : Prop where
  least_le : F.least ≤ place
  nearest : Nearest (q / 2 ^ place) mantissa
  lt : q < 2 ^ (place + F.fraction + 1)
  le : F.least < place → 2 ^ (place + F.fraction) ≤ q

variable {F : FloatFormat}

/-- The pattern of the magnitude that a mantissa has at a place. -/
def pattern (F : FloatFormat) (place : ℤ) (mantissa : ℕ) : ℕ :=
  (place - F.least).toNat * Nat.pow 2 F.fraction + mantissa

namespace Rounded

variable {q q' : ℚ} {place place' : ℤ} {mantissa mantissa' : ℕ}

theorem place_le (h : Rounded F q place mantissa) (h' : Rounded F q' place' mantissa')
    (hle : q ≤ q') : place ≤ place' := by
  by_contra hlt
  have hnormal := h.le (h'.least_le.trans_lt (not_le.mp hlt))
  have hpow : (2 : ℚ) ^ (place' + F.fraction + 1) ≤ 2 ^ (place + F.fraction) :=
    zpow_le_zpow_right₀ one_le_two (by omega)
  exact absurd (h'.lt.trans_le (hpow.trans hnormal)) (not_lt.mpr hle)

theorem unique (h : Rounded F q place mantissa) (h' : Rounded F q place' mantissa') :
    place = place' ∧ mantissa = mantissa' := by
  obtain rfl : place = place' := le_antisymm (h.place_le h' le_rfl) (h'.place_le h le_rfl)
  exact ⟨rfl, h.nearest.unique h'.nearest⟩

theorem le_mantissa (h : Rounded F q place mantissa) (hp : F.least < place) :
    2 ^ F.fraction ≤ mantissa := by
  have hpow : (0 : ℚ) < 2 ^ place := by positivity
  have hq : (2 : ℚ) ^ F.fraction ≤ q / 2 ^ place := by
    rw [le_div_iff₀ hpow, ← zpow_natCast, ← zpow_add₀ two_ne_zero, add_comm]
    exact h.le hp
  have hnear := abs_le.mp h.nearest.le
  have hlt : ((2 ^ F.fraction : ℕ) : ℚ) < mantissa + 1 := by
    push_cast
    linarith
  have hlt' : 2 ^ F.fraction < mantissa + 1 := by exact_mod_cast hlt
  omega

theorem mantissa_le (h : Rounded F q place mantissa) : mantissa ≤ 2 ^ (F.fraction + 1) := by
  have hpow : (0 : ℚ) < 2 ^ place := by positivity
  have hq : q / 2 ^ place < (2 : ℚ) ^ (F.fraction + 1) := by
    rw [div_lt_iff₀ hpow, ← zpow_natCast, ← zpow_add₀ two_ne_zero]
    have hlt := h.lt
    push_cast
    rwa [show (F.fraction : ℤ) + 1 + place = place + F.fraction + 1 by ring]
  have hnear := abs_le.mp h.nearest.le
  have hlt : (mantissa : ℚ) < ((2 ^ (F.fraction + 1) + 1 : ℕ) : ℚ) := by
    push_cast at hq ⊢
    linarith
  have hlt' : mantissa < 2 ^ (F.fraction + 1) + 1 := by exact_mod_cast hlt
  omega

/-- Rounding keeps the order: the next power of two is between results at different places. -/
theorem mul_zpow_le (h : Rounded F q place mantissa) (h' : Rounded F q' place' mantissa')
    (hle : q ≤ q') : (mantissa : ℚ) * 2 ^ place ≤ mantissa' * 2 ^ place' := by
  rcases eq_or_lt_of_le (h.place_le h' hle) with rfl | hlt
  · have hpow : (0 : ℚ) < 2 ^ place := by positivity
    have hratio := div_le_div_of_nonneg_right hle hpow.le
    have hmantissa : (mantissa : ℚ) ≤ mantissa' := by
      exact_mod_cast h.nearest.le_of h'.nearest hratio
    exact mul_le_mul_of_nonneg_right hmantissa hpow.le
  · have hupper : (mantissa : ℚ) ≤ 2 ^ (F.fraction + 1) := by exact_mod_cast h.mantissa_le
    have hlower : (2 : ℚ) ^ F.fraction ≤ mantissa' := by
      exact_mod_cast h'.le_mantissa (h.least_le.trans_lt hlt)
    calc (mantissa : ℚ) * 2 ^ place ≤ 2 ^ (F.fraction + 1) * 2 ^ place :=
          mul_le_mul_of_nonneg_right hupper (by positivity)
      _ = 2 ^ F.fraction * 2 ^ (place + 1) := by
        rw [zpow_add_one₀ two_ne_zero, pow_succ]
        ring
      _ ≤ 2 ^ F.fraction * 2 ^ place' :=
        mul_le_mul_of_nonneg_left (zpow_le_zpow_right₀ one_le_two hlt) (by positivity)
      _ ≤ mantissa' * 2 ^ place' := mul_le_mul_of_nonneg_right hlower (by positivity)

/-- How far the result is from the ratio. -/
theorem dist_le (h : Rounded F q place mantissa) : |q - mantissa * 2 ^ place| ≤ 2 ^ place / 2 := by
  have hpow : (0 : ℚ) < 2 ^ place := by positivity
  have hsplit : q - mantissa * 2 ^ place = (q / 2 ^ place - mantissa) * 2 ^ place := by
    field_simp
  rw [hsplit, abs_mul, abs_of_pos hpow]
  calc |q / 2 ^ place - mantissa| * 2 ^ place ≤ 1 / 2 * 2 ^ place :=
        mul_le_mul_of_nonneg_right h.nearest.le hpow.le
    _ = 2 ^ place / 2 := by ring

end Rounded

theorem roundMagnitude_eq {n d : ℕ} (hn : 0 < n) (hd : 0 < d) :
    ∃ place mantissa, Rounded F (n / d) place mantissa ∧
      Binary.roundMagnitude F n d = min F.infinity (pattern F place mantissa) := by
  have hd' : (0 : ℚ) < d := by exact_mod_cast hd
  obtain ⟨hlog, hlog'⟩ := log2Ratio_bounds hn hd
  let place : ℤ := max F.least (log2Ratio n d - F.fraction)
  let mantissa : ℕ := if 0 ≤ place then divRoundEven n (d * Nat.pow 2 place.toNat)
    else divRoundEven (n * Nat.pow 2 (-place).toNat) d
  refine ⟨place, mantissa, ⟨le_max_left _ _, ?_, ?_, fun hp => ?_⟩, ?_⟩
  · dsimp only [mantissa]
    split_ifs with hp
    · have hnear := divRoundEven_nearest n (d := d * Nat.pow 2 place.toNat)
        (Nat.mul_pos hd (Nat.two_pow_pos _))
      rwa [Nat.cast_mul, two_zpow_toNat hp, ← div_div] at hnear
    · have hnear := divRoundEven_nearest (n * Nat.pow 2 (-place).toNat) hd
      have hq : ((n * Nat.pow 2 (-place).toNat : ℕ) : ℚ) / d = n / d / 2 ^ place := by
        rw [Nat.cast_mul, two_zpow_toNat_neg hp]
        field_simp
      rwa [hq] at hnear
  · have hp : log2Ratio n d - F.fraction ≤ place := le_max_right _ _
    have hpow : (2 : ℚ) ^ (log2Ratio n d + 1) ≤ 2 ^ (place + F.fraction + 1) :=
      zpow_le_zpow_right₀ one_le_two (by omega)
    exact hlog'.trans_le hpow
  · have hplace : place = log2Ratio n d - F.fraction :=
      (max_choice _ _).resolve_left fun h => absurd (h ▸ hp : F.least < F.least) (lt_irrefl _)
    rw [hplace, sub_add_cancel]
    exact hlog
  · unfold Binary.roundMagnitude
    rw [if_neg hn.ne']
    rfl

namespace Binary

/-- The absolute value of a finite number. -/
def size (x : Binary F) : ℚ := x.mantissa * 2 ^ x.scale

theorem least_le_scale (x : Binary F) : F.least ≤ x.scale := by
  unfold scale
  omega

theorem mantissa_lt (x : Binary F) : x.mantissa < 2 ^ (F.fraction + 1) := by
  have hpos : 0 < 2 ^ F.fraction := Nat.two_pow_pos _
  have hmod := Nat.mod_lt x.magnitude hpos
  unfold mantissa
  simp only [Nat.pow_eq] at *
  split_ifs <;> omega

theorem le_mantissa {x : Binary F} (h : F.least < x.scale) : 2 ^ F.fraction ≤ x.mantissa := by
  unfold scale at h
  unfold mantissa
  split_ifs with hsmall
  · rw [Nat.div_eq_of_lt hsmall] at h
    omega
  · exact Nat.le_add_left _ _

theorem magnitude_eq (x : Binary F) : x.magnitude = pattern F x.scale x.mantissa := by
  unfold pattern scale mantissa
  rw [add_sub_cancel_left, Int.toNat_natCast]
  split_ifs with hsmall
  · rw [Nat.div_eq_of_lt hsmall, Nat.zero_sub, Nat.zero_mul, Nat.zero_add]
  · have hone : 1 ≤ x.magnitude / Nat.pow 2 F.fraction :=
      (Nat.one_le_div_iff (Nat.two_pow_pos _)).mpr (not_lt.mp hsmall)
    have hdiv := Nat.div_add_mod x.magnitude (Nat.pow 2 F.fraction)
    obtain ⟨k, hk⟩ : ∃ k, x.magnitude / Nat.pow 2 F.fraction = k + 1 :=
      ⟨_, (Nat.sub_add_cancel hone).symm⟩
    rw [hk] at hdiv ⊢
    rw [Nat.add_sub_cancel]
    linarith [Nat.mul_comm (Nat.pow 2 F.fraction) (k + 1), Nat.succ_mul k (Nat.pow 2 F.fraction)]

/-- What a mantissa and a place say of the size. A mantissa may have come to the next power of two. -/
theorem size_of_pattern {y : Binary F} {place : ℤ} {m : ℕ} (hy : y.magnitude = pattern F place m)
    (hp : F.least ≤ place) (hm : m ≤ 2 ^ (F.fraction + 1))
    (hnormal : F.least < place → 2 ^ F.fraction ≤ m) : y.size = m * 2 ^ place := by
  obtain ⟨k, hk⟩ : ∃ k : ℕ, place = F.least + k := ⟨(place - F.least).toNat, by omega⟩
  have hpos : 0 < 2 ^ F.fraction := Nat.two_pow_pos _
  have hmag : y.magnitude = k * 2 ^ F.fraction + m := by
    rw [hy, pattern, hk, add_sub_cancel_left, Int.toNat_natCast, Nat.pow_eq]
  have hsize : ∀ j r : ℕ, r < 2 ^ F.fraction → y.magnitude = (j + 1) * 2 ^ F.fraction + r →
      y.size = ((r + 2 ^ F.fraction : ℕ) : ℚ) * 2 ^ (F.least + j) := by
    intro j r hr hj
    have hdiv : y.magnitude / 2 ^ F.fraction = j + 1 := by
      rw [hj, Nat.mul_comm, Nat.mul_add_div hpos, Nat.div_eq_of_lt hr, Nat.add_zero]
    have hmod : y.magnitude % 2 ^ F.fraction = r := by
      rw [hj, Nat.mul_comm, Nat.mul_add_mod, Nat.mod_eq_of_lt hr]
    have hlarge : ¬ y.magnitude < 2 ^ F.fraction := by
      rw [hj, Nat.succ_mul]
      omega
    rw [size, mantissa, scale]
    simp only [Nat.pow_eq, if_neg hlarge, hdiv, hmod, Nat.add_sub_cancel]
  rcases Nat.lt_or_ge m (2 ^ F.fraction) with hsmall | hlarge
  · have hleast : place = F.least := by
      by_contra hne
      exact absurd (hnormal (lt_of_le_of_ne hp (Ne.symm hne))) (not_le.mpr hsmall)
    obtain rfl : k = 0 := by omega
    rw [Nat.zero_mul, Nat.zero_add] at hmag
    rw [size, mantissa, scale]
    simp only [Nat.pow_eq, hmag, if_pos hsmall, Nat.div_eq_of_lt hsmall, hleast]
    simp
  · rcases Nat.lt_or_ge m (2 ^ (F.fraction + 1)) with hin | hover
    · rw [pow_succ] at hin
      have hrest := hsize k (m - 2 ^ F.fraction) (by omega) (by rw [hmag, Nat.succ_mul]; omega)
      rw [hrest, Nat.sub_add_cancel hlarge, hk]
    · obtain rfl : m = 2 ^ (F.fraction + 1) := le_antisymm hm hover
      have hnext := hsize (k + 1) 0 hpos (by rw [hmag, pow_succ]; ring)
      rw [hnext, hk, Nat.zero_add, Nat.cast_add, Nat.cast_one, ← add_assoc,
        zpow_add_one₀ two_ne_zero]
      push_cast
      ring

end Binary

end FrameLoop

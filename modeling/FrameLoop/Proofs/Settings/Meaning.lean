import FrameLoop.Limiter
import FrameLoop.Proofs.Play
import FrameLoop.Proofs.Settings.Accepted

/-! What accepted settings come to in the parts that take them. A frame and a summary interval are
rounded to nanoseconds after the check, so a rate that is high enough has no least frame, and an
interval that is short enough is none. -/

namespace FrameLoop

open Binary

theorem size_le_of_lt {x : Single} (h : x.size < 2 * 10 ^ 9) : x.size ≤ 1999999872 := by
  -- the numbers that are this large are multiples of 128
  rcases le_or_gt 7 x.scale with hlarge | hsmall
  · obtain ⟨k, hk⟩ : ∃ k : ℕ, x.scale = (7 : ℕ) + k := ⟨(x.scale - 7).toNat, by omega⟩
    have hsize : x.size = ((128 * (x.mantissa * 2 ^ k) : ℕ) : ℚ) := by
      rw [size, hk, zpow_add₀ two_ne_zero, zpow_natCast, zpow_natCast]
      push_cast
      ring
    rw [hsize] at h ⊢
    have hlt : 128 * (x.mantissa * 2 ^ k) < 2 * 10 ^ 9 := by exact_mod_cast h
    have hle : 128 * (x.mantissa * 2 ^ k) ≤ 1999999872 := by omega
    exact_mod_cast hle
  · have hmantissa : (x.mantissa : ℚ) ≤ 2 ^ 24 := by exact_mod_cast x.mantissa_lt.le
    have hpow : (2 : ℚ) ^ x.scale ≤ 2 ^ (6 : ℤ) := zpow_le_zpow_right₀ one_le_two (by omega)
    calc x.size ≤ 2 ^ 24 * 2 ^ (6 : ℤ) := mul_le_mul hmantissa hpow (by positivity) (by positivity)
      _ ≤ 1999999872 := by norm_num

/-- The single numbers nearest to the frames of the two rates next to each other where the least frame
ends: one below half a nanosecond and one above it. -/
theorem size_one_div_fast : (ofRatio false 1 2000000000 : Single).size = 9007199 * 2 ^ (-54 : ℤ) ∧
    (ofRatio false 1 1999999872 : Single).size = 9007200 * 2 ^ (-54 : ℤ) := by
  have hbelow : (ofRatio false 1 2000000000 : Single) = .ofBits 0x3009705f := by decide +kernel
  have habove : (ofRatio false 1 1999999872 : Single) = .ofBits 0x30097060 := by decide +kernel
  rw [hbelow, habove]
  exact ⟨rfl, rfl⟩

/-- The quotient is rounded twice, to a single number and to nanoseconds; it comes to nothing just where
the exact one is at most half a nanosecond. -/
theorem frame_pos_iff {x : Single} {d : Duration} (hfinite : x.isFinite = true)
    (hm : 0 < x.mantissa) (h : Duration.ofRate? x = some d) : 0 < d ↔ x.size < 2 * 10 ^ 9 := by
  have hx : 0 < x.size := size_pos_iff.mpr hm
  have hnearest : Nearest ((ofNat 1 / x).size * 10 ^ 9) d := Duration.ofSeconds?_nearest h
  have hquotient : (ofNat 1 / x).isFinite = true :=
    (Duration.ofSeconds?_isSome_iff.mp (Option.isSome_of_eq_some h)).1
  have hrounds := one_div_rounds hfinite hm
  obtain ⟨hbelow, habove⟩ := size_one_div_fast
  have hfast (n : ℕ) (hn : 0 < n) : (ofRatio false 1 n : Single).Rounds (1 / n) :=
    ⟨1, n, hn, by simp, rfl⟩
  rw [hnearest.pos_iff (mul_nonneg (size_nonneg _) (by norm_num))]
  constructor
  · intro hlarge
    by_contra hrate
    have hle := hrounds.size_le (hfast 2000000000 (by decide)) hquotient (by decide +kernel)
      (by positivity) (one_div_le_one_div_of_le (by norm_num) (by push_cast; linarith))
    rw [hbelow] at hle
    norm_num at hle
    linarith
  · intro hrate
    have hslow := size_le_of_lt hrate
    have hle := (hfast 1999999872 (by decide)).size_le hrounds (by decide +kernel) hquotient
      (by norm_num) (one_div_le_one_div_of_le hx (by push_cast; linarith))
    rw [habove] at hle
    norm_num at hle
    linarith

/-- The least frame at a rate. -/
structure LeastFrame (rate : Single) (least : Duration) : Prop where
  zero_or_positive : rate.isZero = true ∨ rate.isPositive = true
  unlimited : rate.isZero = true → least = 0
  quotient : rate.isPositive = true →
    (ofNat 1 / rate).isFinite = true ∧ (ofNat 1 / rate).Rounds (1 / rate.size)
  nearest : rate.isPositive = true → Nearest ((ofNat 1 / rate).size * 10 ^ 9) least
  pos_iff : 0 < least ↔ rate.isPositive = true ∧ rate.size < 2 * 10 ^ 9

/-- The time between two summaries, for a number of seconds. -/
structure SummaryTime (seconds : Double) (interval : Duration) : Prop where
  positive : seconds.isPositive = true
  kept : Duration.ofSeconds? seconds = some interval
  nearest : Nearest (seconds.size * 10 ^ 9) interval
  pos_iff : 0 < interval ↔ 1 / (2 * 10 ^ 9) < seconds.size

namespace Settings

variable {s : Settings}

theorem problem?_of_validate (h : s.validate.1 = .ok ()) : s.problem? = none := by
  unfold validate at h
  cases hp : s.problem? with
  | none => rfl
  | some p =>
    rw [hp] at h
    cases h

theorem frame_of_positive (h : s.problem? = none) (hpositive : s.framerateLimit.isPositive = true) :
    ∃ d, Duration.ofRate? s.framerateLimit = some d := by
  unfold problem? at h
  split_ifs at h with hsign hrate
  rw [hpositive, Bool.true_and, Option.isNone_iff_eq_none] at hrate
  exact Option.ne_none_iff_exists'.mp hrate

theorem leastFrame (h : s.problem? = none) :
    ∃ least, Limiter.frameFor s.framerateLimit = (least, []) ∧ LeastFrame s.framerateLimit least := by
  obtain ⟨hfinite, hnormal⟩ := (accepted h).rate
  by_cases hpositive : s.framerateLimit.isPositive = true
  · obtain ⟨d, hd⟩ := frame_of_positive h hpositive
    have hm := ((isPositive_iff hfinite).mp hpositive).2
    refine ⟨d, by rw [Limiter.frameFor, if_pos hpositive, hd], Or.inr hpositive, fun hzero => ?_,
      fun _ => ?_, fun _ => Duration.ofSeconds?_nearest hd, ?_⟩
    · have hmagnitude := mantissa_pos_iff.mp hm
      rw [isZero, beq_iff_eq] at hzero
      exact absurd hzero hmagnitude.ne'
    · exact ⟨(Duration.ofSeconds?_isSome_iff.mp (Option.isSome_of_eq_some hd)).1,
        one_div_rounds hfinite hm⟩
    · rw [frame_pos_iff hfinite hm hd]
      exact (and_iff_right hpositive).symm
  · have hzero : s.framerateLimit.isZero = true := by
      by_contra hne
      have hm : 0 < s.framerateLimit.mantissa := by
        rw [mantissa_pos_iff]
        rw [isZero, beq_iff_eq] at hne
        exact Nat.pos_of_ne_zero hne
      exact hpositive ((isPositive_iff hfinite).mpr ⟨(hnormal hm).1, hm⟩)
    refine ⟨0, by rw [Limiter.frameFor, if_neg hpositive], Or.inl hzero, fun _ => rfl,
      fun h => absurd h hpositive, fun h => absurd h hpositive, ?_⟩
    exact ⟨fun h => absurd h (lt_irrefl 0), fun h => absurd h.1 hpositive⟩

theorem summaryTime (h : s.problem? = none) : SummaryTime s.statsSummaryInterval s.summaryInterval := by
  have hinterval := (accepted h).interval
  have hchecks := intervalAccepted_iff.mpr hinterval
  rw [Bool.and_eq_true] at hchecks
  obtain ⟨d, hd⟩ := Option.isSome_iff_exists.mp hchecks.2
  have hkept : s.summaryInterval = d := by rw [summaryInterval, hd, Option.getD_some]
  have hnearest := Duration.ofSeconds?_nearest hd
  rw [hkept]
  refine ⟨hchecks.1, hd, hnearest, ?_⟩
  rw [hnearest.pos_iff (mul_nonneg (size_nonneg _) (by norm_num)), ← div_lt_iff₀ (by norm_num),
    div_div]

theorem workers (h : s.problem? = none) : (s.scriptWorkers : ℤ) = min s.scriptWorkerThreads 1 ∧
    (s.physicsWorkers : ℤ) = s.physicsWorkerThreads := by
  obtain ⟨-, hscript, hphysics, -⟩ := accepted h
  unfold scriptWorkers physicsWorkers
  omega

/-- Accepted settings are taken as they are, up to rounding. The limiter warns of nothing, and only at
rate zero and from `2 * 10 ^ 9` frames a second on is it without a least frame. The summary interval is
never the one that stands in for rejected values, but up to half a nanosecond it is zero. -/
theorem accepted_downstream (h : s.validate.1 = .ok ()) (now : Instant) :
    (∃ least, Limiter.new s.framerateLimit now = (⟨least, now, 0⟩, []) ∧
        LeastFrame s.framerateLimit least) ∧
      SummaryTime s.statsSummaryInterval s.summaryInterval ∧
      (s.scriptWorkers : ℤ) = min s.scriptWorkerThreads 1 ∧
      (s.physicsWorkers : ℤ) = s.physicsWorkerThreads := by
  have hnone := problem?_of_validate h
  obtain ⟨least, hframe, hleast⟩ := leastFrame hnone
  refine ⟨⟨least, ?_, hleast⟩, summaryTime hnone, workers hnone⟩
  rw [Limiter.new, hframe]

/-- Settings with the last rate that has a least frame, and more workers than are used. -/
def lastPacedRate : Settings :=
  { defaults with
    framerateLimit := .ofNat 1999999872
    scriptWorkerThreads := 4
    physicsWorkerThreads := 2
    statsSummaryInterval := .ofRatio false 6 10000000000 }

theorem accepted_downstream_last_paced_rate :
    lastPacedRate.validate.1 = .ok () ∧ Limiter.new lastPacedRate.framerateLimit 5 = (⟨1, 5, 0⟩, []) ∧
      LeastFrame lastPacedRate.framerateLimit 1 ∧ SummaryTime lastPacedRate.statsSummaryInterval 1 ∧
      lastPacedRate.scriptWorkers = 1 ∧ lastPacedRate.physicsWorkers = 2 := by
  have hnone : lastPacedRate.problem? = none := by decide +kernel
  have haccepted : lastPacedRate.validate.1 = .ok () := by rw [validate, hnone]
  have hnew : Limiter.new lastPacedRate.framerateLimit 5 = (⟨1, 5, 0⟩, []) := by decide +kernel
  have htime : lastPacedRate.summaryInterval = 1 := by decide +kernel
  obtain ⟨⟨least, hlimiter, hleast⟩, hsummary, -, -⟩ := accepted_downstream haccepted 5
  have hone : least = 1 := by
    rw [hnew] at hlimiter
    exact (congrArg (fun p => p.1.minFrame) hlimiter).symm
  rw [hone] at hleast
  rw [htime] at hsummary
  exact ⟨haccepted, hnew, hleast, hsummary, rfl, rfl⟩

/-- Settings that ask for `2 * 10 ^ 9` frames a second and a summary every tenth of a nanosecond. -/
def unpacedRate : Settings :=
  { defaults with
    framerateLimit := .ofNat 2000000000
    statsSummaryInterval := .ofRatio false 1 10000000000 }

theorem accepted_without_pace :
    unpacedRate.validate.1 = .ok () ∧ unpacedRate.framerateLimit.isPositive = true ∧
      Limiter.new unpacedRate.framerateLimit 0 = (⟨0, 0, 0⟩, []) ∧ unpacedRate.summaryInterval = 0 := by
  have haccepted : unpacedRate.problem? = none := by decide +kernel
  refine ⟨?_, by decide +kernel, by decide +kernel, by decide +kernel⟩
  rw [validate, haccepted]

end Settings

theorem Telemetry.openReport_interval {φ ω : Type} [Storage φ ω] [Report ω φ] {t t' : Telemetry ω}
    {path : String} {storage storage' : φ} {log : List Record}
    (h : t.openReport path storage = (.ok t', storage', log)) : t'.interval = t.interval := by
  unfold openReport at h
  split at h
  · cases h
  · cases h
    rfl

namespace Engine

variable {σ φ ω : Type} {settings : Settings}

structure Takes (settings : Settings) (e : Engine σ φ ω) : Prop where
  minFrame : e.limiter.minFrame = (Limiter.frameFor settings.framerateLimit).1
  interval : e.telemetry.interval = settings.summaryInterval
  threaded : e.strategy.map UpdateStrategy.isThreaded = some (decide (settings.scriptWorkers ≠ 0))

theorem assembled_takes (storage : φ) (patience : ℕ) (scene : Scene σ FrameStats) :
    Takes settings (assembled settings storage patience (prepare settings scene) : Engine σ φ ω) := by
  have hone : ¬ 1 < settings.scriptWorkers := not_lt.mpr (min_le_right _ _)
  unfold prepare UpdateStrategy.new
  by_cases hw : settings.scriptWorkers = 0
  · rw [if_pos hw]
    exact ⟨rfl, rfl, by rw [hw]; rfl⟩
  · rw [if_neg hw, if_neg hone]
    refine ⟨rfl, rfl, ?_⟩
    rw [decide_eq_true hw]
    rfl

variable {F : Facades σ FrameStats} [Report ω φ] [Storage φ ω] {world : σ} {storage : φ}
  {clock : Clock} {schedule : Schedule} {statsFile : Option String} {patience : ℕ}
  {e : Engine σ φ ω}

theorem new_takes (h : new F settings world storage clock schedule statsFile patience = .ok e) :
    settings.problem? = none ∧ Takes settings e := by
  cases hp : settings.problem? with
  | some problem =>
    rw [new_of_problem F hp] at h
    cases h
  | none =>
    refine ⟨rfl, ?_⟩
    have htakes : Takes settings (assembled settings storage patience
        (prepare settings (opening settings world clock schedule)) : Engine σ φ ω) :=
      assembled_takes storage patience _
    rw [new_eq F hp] at h
    cases statsFile with
    | none =>
      cases h
      exact htakes
    | some path =>
      dsimp only at h
      unfold withStatsFile at h
      split at h
      · cases h
      · next hopen =>
        cases h
        exact ⟨htakes.minFrame, (Telemetry.openReport_interval hopen).trans htakes.interval,
          htakes.threaded⟩

/-- What the settings of a new engine come to in it. -/
theorem new_downstream (h : new F settings world storage clock schedule statsFile patience = .ok e) :
    LeastFrame settings.framerateLimit e.limiter.minFrame ∧
      SummaryTime settings.statsSummaryInterval e.telemetry.interval ∧
      e.strategy.map UpdateStrategy.isThreaded = some (decide (0 < settings.scriptWorkerThreads)) := by
  obtain ⟨hnone, hminFrame, hinterval, hthreaded⟩ := new_takes h
  obtain ⟨least, hframe, hleast⟩ := Settings.leastFrame hnone
  obtain ⟨hscript, -⟩ := Settings.workers hnone
  have hworker : settings.scriptWorkers ≠ 0 ↔ 0 < settings.scriptWorkerThreads := by omega
  rw [hminFrame, hframe, hinterval, hthreaded, decide_eq_decide.mpr hworker]
  exact ⟨hleast, Settings.summaryTime hnone, rfl⟩

end Engine

end FrameLoop

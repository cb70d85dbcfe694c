import FrameLoop.Limiter
import Mathlib.Algebra.GroupWithZero.Nat

/-! What a limiter records over many frames. No frame that it ends is shorter than the least
frame, and all it records together is the time that passed, less what its sleeps ran over. -/

namespace FrameLoop.Limiter

/-- The end of a frame, with the clock readings that are taken for it. -/
inductive Reading
  | limit (now woken : Instant)
  | advance (now : Instant)
  deriving DecidableEq

def Reading.limits : Reading → Bool
  | limit _ _ => true
  | advance _ => false

variable (l : Limiter)

def measure : Reading → Limiter
  | .limit now woken => l.limit now woken
  | .advance now => l.advance now

def measureAll (readings : List Reading) : Limiter := readings.foldl measure l

/-- The durations that are recorded, frame by frame. -/
def frames (l : Limiter) : List Reading → List Duration
  | [] => []
  | r :: rest => (l.measure r).lastFrame :: (l.measure r).frames rest

/-- By how much a sleep was longer than was asked for. -/
def oversleep : Reading → Duration
  | .limit now woken =>
    if now.since l.lastMeasurement < l.minFrame then woken - (now + l.pause now) else 0
  | .advance _ => 0

def oversleeps (l : Limiter) : List Reading → List Duration
  | [] => []
  | r :: rest => l.oversleep r :: (l.measure r).oversleeps rest

/-- A frame does not end before its measurement began, and a sleep is not cut short. -/
def Timely : Reading → Prop
  | .limit now woken => l.lastMeasurement ≤ now ∧
      (now.since l.lastMeasurement < l.minFrame → now + l.pause now ≤ woken)
  | .advance now => l.lastMeasurement ≤ now

instance : DecidablePred l.Timely
  | .limit _ _ => inferInstanceAs (Decidable (_ ∧ (_ → _)))
  | .advance _ => inferInstanceAs (Decidable (_ ≤ _))

def AllTimely (l : Limiter) : List Reading → Prop
  | [] => True
  | r :: rest => l.Timely r ∧ (l.measure r).AllTimely rest

def decidableAllTimely (l : Limiter) : (readings : List Reading) → Decidable (l.AllTimely readings)
  | [] => .isTrue trivial
  | r :: rest =>
    have := decidableAllTimely (l.measure r) rest
    inferInstanceAs (Decidable (_ ∧ _))

instance : DecidablePred l.AllTimely := decidableAllTimely l

variable {l} {r : Reading} {readings : List Reading}

theorem limit_lastFrame (l : Limiter) (now woken : Instant) :
    (l.limit now woken).lastFrame = max l.minFrame (now.since l.lastMeasurement) := by
  by_cases hp : now.since l.lastMeasurement < l.minFrame
  · simp only [limit, hp, if_true]
    exact (Nat.max_eq_left (Nat.le_of_lt hp)).symm
  · simp only [limit, hp, if_false]
    exact (Nat.max_eq_right (Nat.le_of_not_lt hp)).symm

@[simp] theorem measure_minFrame (l : Limiter) (r : Reading) :
    (l.measure r).minFrame = l.minFrame := by
  cases r with
  | limit now woken =>
    simp only [measure, limit]
    split <;> rfl
  | advance now => rfl

@[simp] theorem measureAll_minFrame (l : Limiter) (readings : List Reading) :
    (l.measureAll readings).minFrame = l.minFrame := by
  induction readings generalizing l with
  | nil => rfl
  | cons r rest ih => exact (ih _).trans (measure_minFrame l r)

/-- What is slept is the difference to the least frame, and not less for being cut off at zero. -/
theorem since_add_pause {now : Instant} (h : now.since l.lastMeasurement < l.minFrame) :
    now.since l.lastMeasurement + l.pause now = l.minFrame :=
  Nat.add_sub_of_le (Nat.le_of_lt h)

/-- The next measurement begins where the recorded frame and the oversleep end. -/
theorem Timely.lastMeasurement_eq (h : l.Timely r) :
    l.lastMeasurement + ((l.measure r).lastFrame + l.oversleep r) =
      (l.measure r).lastMeasurement := by
  cases r with
  | advance now => exact Nat.add_sub_of_le h
  | limit now woken =>
    obtain ⟨hn, hw⟩ := h
    have hnow : l.lastMeasurement + now.since l.lastMeasurement = now := Nat.add_sub_of_le hn
    by_cases hp : now.since l.lastMeasurement < l.minFrame
    · -- the measurement restarts after the sleep, not where the frame was found too short
      simp only [measure, limit, oversleep, hp, if_true]
      calc l.lastMeasurement + (l.minFrame + (woken - (now + l.pause now)))
          = l.lastMeasurement + l.minFrame + (woken - (now + l.pause now)) :=
            (Nat.add_assoc ..).symm
        _ = now + l.pause now + (woken - (now + l.pause now)) := by
            rw [← since_add_pause hp, ← Nat.add_assoc, hnow]
        _ = woken := Nat.add_sub_of_le (hw hp)
    · simp only [measure, limit, oversleep, hp, if_false]
      exact hnow

theorem AllTimely.lastMeasurement_eq (h : l.AllTimely readings) :
    l.lastMeasurement + ((l.frames readings).sum + (l.oversleeps readings).sum) =
      (l.measureAll readings).lastMeasurement := by
  induction readings generalizing l with
  | nil => rfl
  | cons r rest ih =>
    have hstep := h.1.lastMeasurement_eq
    have hrest := ih h.2
    simp only [frames, oversleeps, List.sum_cons]
    rw [Nat.add_add_add_comm, ← Nat.add_assoc, hstep, hrest]
    rfl

theorem minFrame_le (l : Limiter) (h : r.limits) : l.minFrame ≤ (l.measure r).lastFrame := by
  cases r with
  | limit now woken =>
    rw [measure, limit_lastFrame]
    exact Nat.le_max_left _ _
  | advance now => cases h

/-- Readings may run backwards here, and sleeps may be cut short. -/
theorem countP_mul_minFrame_le (l : Limiter) (readings : List Reading) :
    readings.countP Reading.limits * l.minFrame ≤ (l.frames readings).sum := by
  induction readings generalizing l with
  | nil => simp
  | cons r rest ih =>
    have hrest := ih (l.measure r)
    rw [measure_minFrame] at hrest
    rw [frames, List.sum_cons]
    by_cases hr : r.limits
    · rw [List.countP_cons_of_pos hr, Nat.succ_mul, Nat.add_comm]
      exact Nat.add_le_add (minFrame_le l hr) hrest
    · rw [List.countP_cons_of_neg hr]
      exact Nat.le_add_left_of_le hrest

theorem sum_map_min_le (frames : List Duration) (d : Duration) :
    (frames.map (min · d)).sum ≤ frames.sum := by
  induction frames with
  | nil => exact Nat.le_refl 0
  | cons f rest ih =>
    rw [List.map_cons, List.sum_cons, List.sum_cons]
    exact Nat.add_le_add (Nat.min_le_left f d) ih

/-- While the clock does not run backwards and no sleep is cut short, the frames that a limiter
records, at least as many least frames as there are calls that limit the rate, never add up to
more than the time that passed since its measurement began: what is missing was overslept. No more
is handed on to the simulation, whose steps are capped. Whatever the readings are, a frame that is
limited is as long as was measured or as the least frame, the rest to sleep is no cut-off
difference, and a frame that is not limited is what passed, zero if the clock ran backwards. -/
theorem frames_paced (l : Limiter) :
    (∀ readings, l.AllTimely readings →
      readings.countP Reading.limits * l.minFrame ≤ (l.frames readings).sum ∧
      (l.frames readings).sum + (l.oversleeps readings).sum =
        (l.measureAll readings).lastMeasurement - l.lastMeasurement ∧
      (l.frames readings).sum ≤ (l.measureAll readings).lastMeasurement - l.lastMeasurement ∧
      ((l.frames readings).map (min · maxSimulationStep)).sum ≤
        (l.measureAll readings).lastMeasurement - l.lastMeasurement) ∧
    ∀ readings now woken, let m := l.measureAll readings
      (now.since m.lastMeasurement < m.minFrame →
        now.since m.lastMeasurement + m.pause now = m.minFrame) ∧
      l.minFrame ≤ (m.limit now woken).lastFrame ∧
      (m.limit now woken).lastFrame = max l.minFrame (now.since m.lastMeasurement) ∧
      (m.lastMeasurement ≤ now → m.lastMeasurement + (m.advance now).lastFrame = now) ∧
      (now ≤ m.lastMeasurement → (m.advance now).lastFrame = 0) ∧
      (m.advance now).lastMeasurement = now := by
  refine ⟨fun readings h => ?_, fun readings now woken => ?_⟩
  · have hall : (l.frames readings).sum + (l.oversleeps readings).sum =
        (l.measureAll readings).lastMeasurement - l.lastMeasurement := by
      rw [← h.lastMeasurement_eq, Nat.add_sub_cancel_left]
    have hsum := Nat.le_trans (Nat.le_add_right _ _) (Nat.le_of_eq hall)
    exact ⟨countP_mul_minFrame_le l readings, hall, hsum,
      Nat.le_trans (sum_map_min_le _ maxSimulationStep) hsum⟩
  · intro m
    have hlast := limit_lastFrame m now woken
    rw [measureAll_minFrame] at hlast
    refine ⟨since_add_pause, ?_, hlast, Nat.add_sub_of_le, Nat.sub_eq_zero_of_le, rfl⟩
    rw [hlast]
    exact Nat.le_max_left _ _

/-- Two frames of fifty in a second: one slept out with three milliseconds too many, and one that
took too long; then a stall that nobody waits for, and one more short frame. -/
theorem frames_paced_fifty :
    let l : Limiter := ⟨20 * Duration.millisecond, 1000, 0⟩
    let readings : List Reading :=
      [.limit 5001000 23001000, .limit 53001000 0, .advance 753001000, .limit 753001000 773001000]
    l.AllTimely readings ∧ l.frames readings = [20000000, 30000000, 700000000, 20000000] ∧
      l.oversleeps readings = [3000000, 0, 0, 0] ∧
      readings.countP Reading.limits * l.minFrame ≤ (l.frames readings).sum ∧
      (l.frames readings).sum + (l.oversleeps readings).sum =
        (l.measureAll readings).lastMeasurement - l.lastMeasurement := by
  intro l readings
  have h : l.AllTimely readings := by decide +kernel
  obtain ⟨hmin, hall, -⟩ := (frames_paced l).1 readings h
  exact ⟨h, by decide +kernel, by decide +kernel, hmin, hall⟩

end FrameLoop.Limiter

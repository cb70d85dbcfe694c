import FrameLoop.Decimal.Layout
import FrameLoop.Duration
import FrameLoop.Error

/-! Frame pacing: the cap on the frame rate, the length of the last frame and the
step of simulated time that follows from it. -/

namespace FrameLoop

/-- The longest step of simulated time, however long the frame took. -/
def maxSimulationStep : Duration := 200 * Duration.millisecond

/-- The step of simulated time, in seconds, for a measured frame. -/
def simulationStep (frame : Duration) : Single := (min frame maxSimulationStep).seconds

structure Limiter where
  /-- The least duration of a frame. -/
  minFrame : Duration
  lastMeasurement : Instant
  lastFrame : Duration
  deriving DecidableEq, Repr

namespace Limiter

/-- The least duration of a frame at a target rate, and a warning if there is none. -/
def frameFor (rate : Single) : Duration × List Record :=
  if rate.isPositive then
    match Duration.ofRate? rate with
    | some d => (d, [])
    | none =>
      (0, [⟨.warn, s!"frame rate limit {rate.message} fps is out of range, running unlimited"⟩])
  else (0, [])

/-- A limiter whose first measurement starts now. -/
def new (rate : Single) (now : Instant) : Limiter × List Record :=
  (⟨(frameFor rate).1, now, 0⟩, (frameFor rate).2)

/-- How long `limit` sleeps if it is called now. -/
def pause (l : Limiter) (now : Instant) : Duration := l.minFrame - now.since l.lastMeasurement

/-- Ends a frame now; if it was too short it lasts until the rest has been slept,
at `woken`. -/
def limit (l : Limiter) (now woken : Instant) : Limiter :=
  let passed := now.since l.lastMeasurement
  if passed < l.minFrame then { l with lastFrame := l.minFrame, lastMeasurement := woken }
  else { l with lastFrame := passed, lastMeasurement := now }

/-- Ends a frame at an instant without sleeping. -/
def advance (l : Limiter) (now : Instant) : Limiter :=
  { l with lastFrame := now.since l.lastMeasurement, lastMeasurement := now }

end Limiter

end FrameLoop

import FrameLoop.Duration

/-! What is not up to the engine: the readings of the clock, which come from an
arbitrary source, and the schedule of the two threads, chosen turn by turn. Frames are
numbered from zero and stamped with the instant at which they start. -/

namespace FrameLoop

/-- A source of readings and how many of them have been used. -/
structure Clock where
  readings : Nat → Instant
  used : Nat

def Clock.read (c : Clock) : Instant × Clock := (c.readings c.used, { c with used := c.used + 1 })

/-- The number of a frame and the instant at which it starts. -/
structure Stamp where
  number : Nat
  start : Instant
  deriving DecidableEq, Repr

/-- Seconds from the start of the frame to an instant, zero before the start. -/
def Stamp.offsetOf (s : Stamp) (now : Instant) : Double := (now.since s.start).seconds

/-- Numbers the frames. -/
structure FrameCounter where
  next : Nat
  deriving DecidableEq, Repr

namespace FrameCounter

def new : FrameCounter := ⟨0⟩

/-- Stamps a new frame that starts now. -/
def advance (c : FrameCounter) (now : Instant) : Stamp × FrameCounter := (⟨c.next, now⟩, ⟨c.next + 1⟩)

end FrameCounter

inductive Thread
  | main
  | worker
  deriving DecidableEq, Repr

/-- What happens next. -/
inductive Turn
  /-- A thread takes its next step. -/
  | run (thread : Thread)
  /-- A waiting thread wakes up although nobody notified it. -/
  | wake (thread : Thread)
  deriving DecidableEq, Repr

/-- The turns that are taken each time the main thread deals with the worker, and how
often it did. When the turns are over, the worker runs only while the main thread
waits for it. -/
structure Schedule where
  turns : Nat → List Turn
  used : Nat

namespace Schedule

/-- The worker never runs unless the main thread waits for it. -/
def lazy : Schedule := ⟨fun _ => [], 0⟩

/-- The turns of the next dealing. -/
def next (s : Schedule) : List Turn × Schedule := (s.turns s.used, { s with used := s.used + 1 })

end Schedule

end FrameLoop

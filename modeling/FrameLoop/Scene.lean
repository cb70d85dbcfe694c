import FrameLoop.Clock
import FrameLoop.Error
import FrameLoop.Telemetry.Phase

/-! Everything a frame acts on besides its own variables: the world behind the
subsystems, the statistics, the clock, the schedule and the logs of the two threads. -/

namespace FrameLoop

structure Scene (σ κ : Type) where
  world : σ
  sink : κ
  clock : Clock
  schedule : Schedule
  log : Log
  workerLog : Log

/-- An action on a scene. -/
abbrev Act (σ κ : Type) := StateM (Scene σ κ)

/-- An action that may stop early; what it did until then stays done. -/
abbrev Attempt (ε σ κ : Type) := ExceptT ε (Act σ κ)

namespace Scene

variable {σ κ ε α : Type}

/-- Appends records to the log of a thread. -/
def append (thread : Thread) (records : List Record) (s : Scene σ κ) : Scene σ κ :=
  match thread with
  | .main => { s with log := s.log ++ records.toArray }
  | .worker => { s with workerLog := s.workerLog ++ records.toArray }

def note (thread : Thread) (level : Level) (message : String) : Act σ κ Unit :=
  modify (append thread [⟨level, message⟩])

def now : Act σ κ Instant := do
  let s ← get
  let (t, clock) := s.clock.read
  set { s with clock }
  return t

def collects [StatsSink κ] (category : String) : Act σ κ Bool := do
  return StatsSink.collects (← get).sink category

def setAttribute [StatsSink κ] (frame : Nat) (name : String) (value : Double) : Act σ κ Unit :=
  modify fun s => { s with sink := StatsSink.set s.sink frame name value }

/-- What is recorded about a phase that ran from `start` to `stop`. -/
def timings (phase : Phase) (stamp : Stamp) (start stop : Instant) : List (String × Double) :=
  [(phase.beginKey, stamp.offsetOf start),
    (phase.takenKey, (stop.since start).seconds),
    (phase.endKey, stamp.offsetOf stop)]

/-- The timings to record at the end of a phase: none unless they are collected now. -/
def dueTimings [StatsSink κ] (phase : Phase) (stamp : Stamp) (start : Instant) :
    Act σ κ (List (String × Double)) := do
  if ← collects engineStats then return timings phase stamp start (← now) else return []

/-- Ends the timing of a phase. -/
def closePhase [StatsSink κ] (phase : Phase) (stamp : Stamp) (start : Instant) : Act σ κ Unit := do
  (← dueTimings phase stamp start).forM fun (name, value) => setAttribute stamp.number name value

/-- Times an action as a phase of a frame, however the action ends. -/
def timed [StatsSink κ] (phase : Phase) (stamp : Stamp) (body : Attempt ε σ κ α) :
    Attempt ε σ κ α :=
  ExceptT.mk do
    let start ← now
    let outcome ← body.run
    closePhase phase stamp start
    return outcome

end Scene

end FrameLoop

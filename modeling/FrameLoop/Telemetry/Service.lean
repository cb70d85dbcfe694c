import FrameLoop.Duration
import FrameLoop.Error
import FrameLoop.Storage.Basic
import FrameLoop.Telemetry.Line
import FrameLoop.Telemetry.Overlay

/-! Reporting: lines for the frames that are final, two frames late, and from
time to time a summary of the timings in the log. -/

namespace FrameLoop

/-- Frames between the end of a frame and its report. -/
def reportLag : Nat := 2

structure Telemetry (ω : Type) where
  overlay : Overlay
  report : Option ω
  lastSummary : Instant
  interval : Duration

namespace Telemetry

variable {φ ω : Type}

def new (interval : Duration) (now : Instant) : Telemetry ω := ⟨[], none, now, interval⟩

/-- Writes pieces in order up to the first that is refused. -/
def writePieces [Report ω φ] : List String → ω → φ → Except FileFault Unit × ω × φ
  | [], w, storage => (.ok (), w, storage)
  | piece :: rest, w, storage =>
    match Report.write piece w storage with
    | (.error f, w, storage) => (.error f, w, storage)
    | (.ok (), w, storage) => writePieces rest w storage

/-- Writes the line of a frame, if anything was recorded for it. -/
def writeFrame [Report ω φ] (stats : FrameStats) (frame : Nat) (w : ω) (storage : φ) :
    Except FileFault Bool × ω × φ :=
  match stats.record? frame with
  | none => (.ok false, w, storage)
  | some attributes =>
    let (r, w, storage) := writePieces (Line.pieces frame attributes) w storage
    (r.map fun () => true, w, storage)

/-- Sends the reports to a new destination and lets go of the one before. -/
def setReport [Report ω φ] (t : Telemetry ω) (w : ω) (storage : φ) : Telemetry ω × φ :=
  ({ t with report := some w },
    match t.report with
    | some old => Report.close old storage
    | none => storage)

/-- Sends the reports to a file, which is emptied. -/
def openReport [Storage φ ω] [Report ω φ] (t : Telemetry ω) (path : String) (storage : φ) :
    Except EngineError (Telemetry ω) × φ × List Record :=
  match Storage.create path storage with
  | (.error f, storage) => (.error (.file path f), storage, [])
  | (.ok w, storage) =>
    let (t, storage) := t.setReport w storage
    (.ok t, storage, [⟨.info, s!"Writing frame statistics to '{path}'"⟩])

/-- The timings of a frame on one line, while they are collected. -/
def summary (stats : FrameStats) (frame : Nat) : Option String :=
  if StatsSink.collects stats engineStats then
    (stats.record? frame).map fun attributes =>
      let timings := Phase.all.filterMap fun p =>
        (attributes.lookup p.takenKey).map fun taken =>
          let millis : Double := taken * .ofNat 1000
          s!" {p.label.trimAscii}={millis.fixed 2}ms"
      s!"Frame {frame}:" ++ String.join timings
  else none

/-- Writes the line of a frame to the destination. A destination that fails is
given up. -/
def reportFrame [Report ω φ] (t : Telemetry ω) (stats : FrameStats) (frame : Nat) (storage : φ) :
    Bool × Telemetry ω × φ × List Record :=
  match t.report with
  | none => (false, t, storage, [])
  | some w =>
    match writeFrame stats frame w storage with
    | (.ok written, w, storage) => (written, { t with report := some w }, storage, [])
    | (.error f, w, storage) =>
      (false, { t with report := none }, Report.close w storage,
        [⟨.error, s!"Failed to write frame statistics, reporting disabled: {f.message}"⟩])

/-- Logs the summary of a frame if the interval has passed. -/
def summarize (t : Telemetry ω) (stats : FrameStats) (frame : Nat) (now : Instant) :
    Telemetry ω × List Record :=
  if t.interval ≤ now.since t.lastSummary then
    ({ t with lastSummary := now }, ((summary stats frame).map (⟨.info, ·⟩)).toList)
  else (t, [])

/-- Ends a frame: reports the one `reportLag` frames before it and tells whether
a line was written. -/
def endFrame [Report ω φ] (t : Telemetry ω) (stats : FrameStats) (frame : Nat) (now : Instant)
    (storage : φ) : Bool × Telemetry ω × φ × List Record :=
  if frame < reportLag then (false, t, storage, [])
  else
    let (written, t, storage, log) := t.reportFrame stats (frame - reportLag) storage
    let (t, more) := t.summarize stats (frame - reportLag) now
    (written, t, storage, log ++ more)

/-- Flushes the destination; a failure is only logged. -/
def flush [Report ω φ] (t : Telemetry ω) (storage : φ) : Telemetry ω × φ × List Record :=
  match t.report with
  | none => (t, storage, [])
  | some w =>
    let (r, w, storage) := Report.flush w storage
    ({ t with report := some w }, storage,
      match r with
      | .ok () => []
      | .error f => [⟨.warn, s!"Failed to flush frame statistics: {f.message}"⟩])

/-- Ends the service: flushes the destination and lets go of it. -/
def close [Report ω φ] (t : Telemetry ω) (storage : φ) : φ × List Record :=
  let (t, storage, log) := t.flush storage
  (match t.report with
    | some w => Report.close w storage
    | none => storage, log)

end Telemetry

end FrameLoop

import FrameLoop.Binary.Format
import FrameLoop.Error
import FrameLoop.Telemetry.Phase
import FrameLoop.Text.Quoted

/-! The lines of the profiler overlay, in the order of their registration. -/

namespace FrameLoop

/-- A bar of the overlay and the statistics it shows. -/
structure OverlayLine where
  label : String
  takenKey : String
  beginKey : String
  endKey : String
  /-- Factor applied before display. -/
  multiplier : Single
  average : Bool
  /-- Larger values are cut on the graph. -/
  maxValue : Single
  deriving DecidableEq

/-- The line of a phase shows milliseconds. -/
def OverlayLine.ofPhase (p : Phase) : OverlayLine where
  label := p.label
  takenKey := p.takenKey
  beginKey := p.beginKey
  endKey := p.endKey
  multiplier := .ofNat 1000
  average := true
  maxValue := .ofNat 10000

abbrev Overlay := List OverlayLine

namespace Overlay

def labels (o : Overlay) : List String := o.map (·.label)

def contains (o : Overlay) (label : String) : Bool := o.any (·.label == label)

/-- Appends a line, and what is logged about it. -/
def add (o : Overlay) (line : OverlayLine) : Overlay × List Record :=
  (o ++ [line], [⟨.debug, s!"Registered profiler line: {Text.quoted line.label}"⟩])

/-- Removes the lines with a label; tells whether there were any. -/
def remove (o : Overlay) (label : String) : Bool × Overlay :=
  (o.contains label, o.filter (·.label != label))

/-- Registers a line for every phase. Without physics workers theirs is dropped again. -/
def addPhases (o : Overlay) (physicsWorkers : Nat) : Overlay × List Record :=
  let (o, log) := Phase.all.foldl (fun (o, log) p =>
    let (o, more) := o.add (.ofPhase p)
    (o, log ++ more)) (o, ([] : List Record))
  (if physicsWorkers = 0 then (o.remove Phase.physicsWorker.label).2 else o, log)

end Overlay

end FrameLoop

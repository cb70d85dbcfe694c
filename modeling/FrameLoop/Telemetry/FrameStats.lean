import FrameLoop.Telemetry.Phase

/-! The statistics of the last few frames. Frames and the attributes of a frame
are kept in increasing order; when there are too many frames the oldest goes. -/

namespace FrameLoop

/-- Sets the value of a key in a list that increases by key. -/
def insertSorted {α β : Type} [Ord α] (key : α) (value : β) : List (α × β) → List (α × β)
  | [] => [(key, value)]
  | (k, v) :: rest =>
    match compare key k with
    | .lt => (key, value) :: (k, v) :: rest
    | .eq => (key, value) :: rest
    | .gt => (k, v) :: insertSorted key value rest

/-- Attributes of one frame, by increasing name. -/
abbrev Attributes := List (String × Double)

structure FrameStats where
  /-- Frames that are kept. -/
  history : Nat
  categories : List String
  /-- By increasing frame number. -/
  frames : List (Nat × Attributes)
  deriving DecidableEq

namespace FrameStats

def defaultHistory : Nat := 25

/-- An empty store; it keeps at least one frame. -/
def new (history : Nat) : FrameStats := ⟨max history 1, [], []⟩

def setCollecting (s : FrameStats) (category : String) (enabled : Bool) : FrameStats :=
  if enabled then { s with categories := s.categories.insert category }
  else { s with categories := s.categories.filter (· != category) }

def record? (s : FrameStats) (frame : Nat) : Option Attributes := s.frames.lookup frame

def attribute? (s : FrameStats) (frame : Nat) (name : String) : Option Double :=
  (s.record? frame).bind (·.lookup name)

def frameNumbers (s : FrameStats) : List Nat := s.frames.map Prod.fst

/-- Drops the oldest frames until no more than `history` are left. -/
def evict (history : Nat) (frames : List (Nat × Attributes)) : List (Nat × Attributes) :=
  frames.drop (frames.length - history)

/-- Records a value in place of any earlier one of the frame and name. -/
def set (s : FrameStats) (frame : Nat) (name : String) (value : Double) : FrameStats :=
  let attributes := insertSorted name value ((s.record? frame).getD [])
  { s with frames := evict s.history (insertSorted frame attributes s.frames) }

instance : StatsSink FrameStats where
  collects s category := s.categories.contains category
  set := set

end FrameStats

end FrameLoop

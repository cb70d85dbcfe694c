import FrameLoop.Binary.Format

/-! Where statistics go, and the timings among them. A sink collects some categories
and takes attributes by frame and name; the timed phases of a frame have names of
their own. -/

namespace FrameLoop

/-- The category of the timings of the phases. -/
def engineStats : String := "engine"

/-- The category of the counters of resources and queues. -/
def resourceStats : String := "resource"

class StatsSink (κ : Type) where
  collects : κ → String → Bool
  set : κ → Nat → String → Double → κ

/-- A sink that collects nothing. -/
structure NoStats where
  deriving DecidableEq, Repr

instance : StatsSink NoStats where
  collects _ _ := false
  set k _ _ _ := k

inductive Phase
  | input
  | sound
  | state
  | script
  | mechanics
  | physics
  /-- Recorded by the physics subsystem itself. -/
  | physicsWorker
  | world
  | gui
  /-- The scripting update, inline or on the worker. -/
  | lua
  deriving DecidableEq, Repr

namespace Phase

/-- Every phase, in the order in which the overlay lists them. -/
def all : List Phase :=
  [input, sound, state, script, mechanics, physics, physicsWorker, world, gui, lua]

/-- The text beside the bar of the overlay. -/
def label : Phase → String
  | input => "Input"
  | sound => "Sound"
  | state => "State"
  | script => "Script"
  | mechanics => "Mech"
  | physics => "Phys"
  | physicsWorker => " -Async"
  | world => "World"
  | gui => "Gui"
  | lua => "Lua"

def stem : Phase → String
  | input => "input"
  | sound => "sound"
  | state => "state"
  | script => "script"
  | mechanics => "mechanics"
  | physics => "physics"
  | physicsWorker => "physicsworker"
  | world => "world"
  | gui => "gui"
  | lua => "lua"

/-- Seconds from the start of the frame to the start of the phase. -/
def beginKey (p : Phase) : String := p.stem ++ "_time_begin"

/-- Seconds spent in the phase. -/
def takenKey (p : Phase) : String := p.stem ++ "_time_taken"

/-- Seconds from the start of the frame to the end of the phase. -/
def endKey (p : Phase) : String := p.stem ++ "_time_end"

/-- The position in the order of all phases. -/
def index (p : Phase) : Nat := all.idxOf p

end Phase

end FrameLoop

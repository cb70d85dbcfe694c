import FrameLoop.Decimal.Layout
import FrameLoop.Binary.Arithmetic
import FrameLoop.Facades

/-! Subsystems without a device behind them, with just enough state to drive the
loop, and a window that closes by itself after a number of frames. -/

namespace FrameLoop.Headless

structure World where
  /-- Which saves can be found. -/
  saves : String → Bool
  physicsWorkers : Nat
  /-- Frames after which the window closes. -/
  frames : Nat
  rendered : Nat
  modes : List GuiMode
  session : SessionState
  audioPaused : Bool
  gameHours : Double
  updates : Nat
  scripts : LocalScripts

def World.new (saves : String → Bool) (physicsWorkers frames : Nat) : World where
  saves := saves
  physicsWorkers := physicsWorkers
  frames := frames
  rendered := 0
  modes := []
  session := .noSession
  audioPaused := false
  gameHours := .zero false
  updates := 0
  scripts := .empty

abbrev Reply := Outcome (Except Failure Unit) World

/-- Success, with what is logged about it. -/
def done (w : World) (log : List Record) : Reply := ⟨.ok (), w, log⟩

/-- Success without a word. -/
def quiet (w : World) : Reply := done w []

def info (message : String) : List Record := [⟨.info, message⟩]

def loadSession (path : String) (w : World) : Reply :=
  if w.saves path then quiet { w with session := .running }
  else ⟨.error ⟨s!"save '{path}' does not exist", []⟩, w, []⟩

def setPaused (paused : Bool) (message : String) (w : World) : Reply :=
  if w.audioPaused = paused then quiet w
  else done { w with audioPaused := paused } [⟨.debug, message⟩]

def perform : Call → World → Reply
  | .pausePlayback, w => setPaused true "Audio paused" w
  | .resumePlayback, w => setPaused false "Audio resumed" w
  | .playTitleMusic, w => done w (info "Playing title music")
  | .endSession, w => done { w with session := .ended } (info "Session ended")
  | .newSession bypassIntro, w =>
    done { w with session := .running } (info s!"New session (intro skipped: {bypassIntro})")
  | .loadSession path, w => loadSession path w
  | .advanceTime hours, w => quiet { w with gameHours := w.gameHours + hours }
  | .pushMode mode, w => quiet { w with modes := w.modes ++ [mode] }
  | .executeInConsole command, w => done w (info s!"Console: {command}")
  | .loadStorage directory, w => done w (info s!"Persistent storage: '{directory}'")
  | .saveStorage directory, w =>
    done w (info s!"Saving persistent storage to '{directory}' after {w.updates} updates")
  | .advanceRenderer time frame, w =>
    done { w with rendered := w.rendered + 1 } [⟨.trace, s!"Frame {frame} at t={time.fixed 3}"⟩]
  | .closeRenderer, w => done w (info s!"Window closed after {w.rendered} frames")
  | _, w => quiet w

def runScript (entry : LocalScript) (w : LocalScripts × World) :
    Outcome (Except Failure Unit) (LocalScripts × World) :=
  ⟨.ok (), w, [⟨.trace, s!"Running {entry.script} on {entityText entry.entity}"⟩]⟩

variable {κ : Type} [StatsSink κ]

/-- With workers the physics has a phase of its own. -/
def stepPhysics (_dt : Single) (_guiActive : Bool) (stamp : Stamp) :
    Attempt Failure World κ Unit := do
  if 0 < (← ExceptT.lift (Facades.ask World.physicsWorkers)) then
    Scene.timed .physicsWorker stamp (pure ())

def reportPart (part : Part) (frame : Nat) : Act World κ Unit := do
  match part with
  | .world => Scene.setAttribute frame "GameHour" (← Facades.ask World.gameHours)
  | .resources => Scene.setAttribute frame "Texture" (.zero false)
  | _ => return

def facades : Facades World κ where
  windowVisible _ := true
  containsMode mode w := w.modes.contains mode
  guiActive w := !w.modes.isEmpty
  session w := w.session
  quitRequested _ := false
  scriptsEnabled _ := true
  playerDead _ := false
  timeScale _ := .ofNat 30
  queuedItems _ := 0
  activeThreads _ := 0
  windowClosed w := w.frames ≤ w.rendered
  localScripts w := w.scripts
  withLocalScripts scripts w := { w with scripts }
  perform := perform
  runScript := runScript
  stepPhysics := stepPhysics
  reportPart := reportPart
  updateScripting _ w := ⟨.finished, { w with updates := w.updates + 1 }, []⟩

end FrameLoop.Headless
